import DiscCatalog.Host.Mailbox

namespace DiscCatalog

namespace Mailboxes

variable {q : Mailboxes} {box other : Mailbox} {letters : List Letter} {key : Int32} {id n type : Nat}

def lettersOf (id : Nat) (q : Mailboxes) : List Letter := ((q.box? id).map (·.letters)).getD []

def refill (id : Nat) (box : Mailbox) (letters : List Letter) (q : Mailboxes) : Mailboxes :=
  { q with boxes := q.boxes.set id (some { box with letters }) }

theorem getElem?_of_box? (there : q.box? id = some box) : q.boxes[id]? = some (some box) :=
  Option.join_eq_some_iff.1 there

theorem lettersOf_of_box? (there : q.box? id = some box) : q.lettersOf id = box.letters := by
  rw [lettersOf, there]
  rfl

theorem box?_refill (there : q.box? id = some box) :
    (q.refill id box letters).box? n = if n = id then some { box with letters } else q.box? n := by
  have short : id < q.boxes.length := (List.getElem?_eq_some_iff.1 (getElem?_of_box? there)).1
  rw [box?, refill, List.getElem?_set]
  by_cases same : id = n
  · subst same
    rw [if_pos rfl, if_pos short, if_pos rfl]
    rfl
  · rw [if_neg same, if_neg (Ne.symm same)]
    rfl

theorem idOf?_eq (key : Int32) (q : Mailboxes) :
    q.idOf? key = if key = 0 then none else (q.boxes.map (Option.map (·.key))).findIdx? (·.any (· = key)) := by
  rw [idOf?, List.findIdx?_map]
  refine congrArg (fun f => if key = 0 then none else q.boxes.findIdx? f) (funext fun slot => ?_)
  cases slot <;> rfl

theorem idOf?_refill (there : q.box? id = some box) (key : Int32) :
    (q.refill id box letters).idOf? key = q.idOf? key := by
  have keys : (q.refill id box letters).boxes.map (Option.map (·.key)) = q.boxes.map (Option.map (·.key)) := by
    obtain ⟨short, at?⟩ := List.getElem?_eq_some_iff.1 (getElem?_of_box? there)
    have inside : id < (q.boxes.map (Option.map (·.key))).length := by simpa using short
    have same : some box.key = (q.boxes.map (Option.map (·.key)))[id] := by
      rw [List.getElem_map, at?]
      rfl
    rw [refill, List.map_set]
    exact (congrArg _ same).trans (List.set_getElem_self _)
  rw [idOf?_eq, idOf?_eq, keys]

theorem idOf?_eq_some (found : q.idOf? key = some id) : key ≠ 0 ∧ ∃ box, q.box? id = some box ∧ box.key = key := by
  unfold idOf? at found
  split at found
  · cases found
  · next some =>
    obtain ⟨short, holds, -⟩ := List.findIdx?_eq_some_iff_getElem.1 found
    obtain ⟨box, at?, same⟩ := (Option.any_eq_true _ _).1 holds
    refine ⟨some, box, ?_, by simpa using same⟩
    rw [box?, List.getElem?_eq_getElem short, at?]
    rfl

theorem idOf?_ne {other : Int32} (found : q.idOf? key = some id) (found' : q.idOf? other = some n)
    (apart : key ≠ other) : id ≠ n := by
  rintro rfl
  obtain ⟨-, box, there, same⟩ := idOf?_eq_some found
  obtain ⟨-, box', there', same'⟩ := idOf?_eq_some found'
  cases there.symm.trans there'
  exact apart (same.symm.trans same')

theorem idOf?_add_eq (key key' : Int32) (permissions : Nat) (q : Mailboxes) :
    (q.add key' permissions).2.idOf? key =
      (q.idOf? key).or (if key ≠ 0 ∧ key' = key then some (q.add key' permissions).1 else none) := by
  unfold idOf?
  by_cases zero : key = 0
  · simp [zero]
  · rw [if_neg zero, if_neg zero, add, List.findIdx?_append]
    by_cases same : key' = key <;> simp [zero, same]

theorem idOf?_add (key' : Int32) (permissions : Nat) (found : q.idOf? key = some id) :
    (q.add key' permissions).2.idOf? key = some id := by
  rw [idOf?_add_eq, found, Option.some_or]

theorem idOf?_add_self (permissions : Nat) (some : key ≠ 0) (none : q.idOf? key = none) :
    (q.add key permissions).2.idOf? key = Option.some (q.add key permissions).1 := by
  rw [idOf?_add_eq, none, Option.none_or, if_pos ⟨some, rfl⟩]

/-- Sending fails and changes nothing, or puts the message behind the others. -/
theorem send_cases (there : q.box? id = some box) (type : Int) (payload : List UInt8) :
    (∃ e, q.send id type payload = (.error e, q)) ∨
      1 ≤ type ∧ q.send id type payload =
        (.ok (), q.refill id box (box.letters ++ [{ type := type.toNat, payload }])) := by
  unfold send
  rw [there]
  dsimp only
  split
  · exact .inl ⟨_, rfl⟩
  · next sound =>
    split
    · exact .inl ⟨_, rfl⟩
    split
    · exact .inl ⟨_, rfl⟩
    · exact .inr ⟨by omega, rfl⟩

def Wanted (type : Nat) (letter : Letter) : Prop := type = 0 ∨ letter.type = type

instance (type : Nat) (letter : Letter) : Decidable (Wanted type letter) :=
  inferInstanceAs (Decidable (type = 0 ∨ letter.type = type))

/-- Receiving fails and changes nothing, because it is not allowed or no message is wanted, or takes the first one
that is. -/
theorem receive_cases (there : q.box? id = some box) (type room : Nat) :
    (∃ e, q.receive id type room = (.error e, q) ∧ (grants box 4 = true → ∀ l ∈ box.letters, ¬ Wanted type l)) ∨
      ∃ front letter back, box.letters = front ++ letter :: back ∧ Wanted type letter ∧
        (∀ l ∈ front, ¬ Wanted type l) ∧
        q.receive id type room = (.ok (letter.payload.take room), q.refill id box (front ++ back)) := by
  unfold receive
  rw [there]
  dsimp only
  split
  · next denied => exact .inl ⟨_, rfl, fun granted => absurd granted denied⟩
  · cases found : box.letters.findIdx? fun letter => decide (type = 0 ∨ letter.type = type) with
    | none =>
      refine .inl ⟨_, rfl, fun _ l inside => ?_⟩
      exact of_decide_eq_false (List.findIdx?_eq_none_iff.1 found l inside)
    | some i =>
      obtain ⟨short, wanted, first⟩ := List.findIdx?_eq_some_iff_getElem.1 found
      have parts : box.letters = box.letters.take i ++ box.letters[i] :: box.letters.drop (i + 1) := by
        rw [List.getElem_cons_drop, List.take_append_drop]
      refine .inr ⟨box.letters.take i, box.letters[i], box.letters.drop (i + 1), parts, of_decide_eq_true wanted, ?_, ?_⟩
      · intro l inside
        obtain ⟨j, before, rfl⟩ := List.mem_take_iff_getElem.1 inside
        exact of_decide_eq_false (Bool.not_eq_true _ ▸ first j (by omega))
      · dsimp only
        rw [List.getElem?_eq_getElem short, List.eraseIdx_eq_take_drop_succ]
        rfl

end Mailboxes

end DiscCatalog
