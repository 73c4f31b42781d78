import DiscCatalog.Proofs.Host.Handles

namespace DiscCatalog

namespace Host

variable {h h' h'' : Host} {path : String} {own place : Location} {i n shared : Nat} {x : Handle}

def Within (shared : Nat) (own : Location) (h : Host) (n : Nat) : Prop := n = shared ∨ h.nodeOf? own = some n

structure Confined (shared : Nat) (own : Location) (h h' : Host) : Prop extends Later h h' where
  grows : h.nodes.length ≤ h'.nodes.length
  name : ∀ place, place ≠ own → h'.nodeOf? place = h.nodeOf? place
  fresh : ∀ n, h'.nodeOf? own = some n → h.nodeOf? own = some n ∨ h.nodes.length ≤ n
  others : ∀ n < h.nodes.length, ¬ Within shared own h n → Spares n h h'

namespace Confined

theorem refl (sound : h.Sound) : Confined shared own h h :=
  ⟨.refl sound, Nat.le_refl _, fun _ _ => rfl, fun _ at? => .inl at?, fun _ _ _ => .refl sound⟩

theorem trans (first : Confined shared own h h') (second : Confined shared own h' h'') : Confined shared own h h'' where
  toLater := first.toLater.trans second.toLater
  grows := Nat.le_trans first.grows second.grows
  name place other := (second.name place other).trans (first.name place other)
  fresh n at? := by
    obtain at? | new := second.fresh n at?
    · exact first.fresh n at?
    · exact .inr (Nat.le_trans first.grows new)
  others n old away := by
    have spares := first.others n old away
    refine spares.trans (second.others n (Nat.lt_of_lt_of_le old first.grows) ?_)
    rintro (same | at?)
    · exact away (.inl same)
    · exact away (.inr ((spares.name own).1 at?))

theorem of_handle (later : Later h h') (nodes : h'.nodes.length = h.nodes.length) (names : h'.names = h.names)
    (spares : ∀ n, (∀ x, h.handle? i = some x → x.node ≠ n) → Spares n h h')
    (on : ∀ x, h.handle? i = some x → Within shared own h x.node) : Confined shared own h h' where
  toLater := later
  grows := Nat.le_of_eq nodes.symm
  name place _ := by rw [nodeOf?, nodeOf?, names]
  fresh n at? := .inl (by rwa [nodeOf?, names] at at?)
  others n _ away := spares n fun x held same => away (same ▸ on x held)

end Confined

def Aloof (shared : Nat) (h h' : Host) : Prop := ∀ own, Confined shared own h h'

namespace Aloof

theorem refl (sound : h.Sound) : Aloof shared h h := fun _ => .refl sound

theorem trans (first : Aloof shared h h') (second : Aloof shared h' h'') : Aloof shared h h'' :=
  fun own => (first own).trans (second own)

theorem later (aloof : Aloof shared h h') : Later h h' := (aloof []).toLater

theorem name (aloof : Aloof shared h h') (place : Location) : h'.nodeOf? place = h.nodeOf? place :=
  (aloof (place ++ [""])).name place (by simp)

theorem others (aloof : Aloof shared h h') (sound : h.Sound) (old : n < h.nodes.length) (other : n ≠ shared) :
    Spares n h h' := by
  by_cases root : h.nodeOf? [] = some n
  · refine (aloof [""]).others n old fun within => within.elim other fun at? => ?_
    cases sound.apart root at?
  · exact (aloof []).others n old fun within => within.elim other root

end Aloof

section Calls

theorem names_close (i : Nat) (h : Host) : (h.close i).names = h.names := by
  cases held : h.handle? i with
  | none => rw [close_of_none held]
  | some x => obtain same | ⟨-, -, same⟩ := close_eq held <;> rw [same] <;> rfl

theorem length_nodes_close (i : Nat) (h : Host) : (h.close i).nodes.length = h.nodes.length := by
  cases held : h.handle? i with
  | none => rw [close_of_none held]
  | some x => obtain same | ⟨-, -, same⟩ := close_eq held <;> rw [same] <;> simp [removing, setContent]

theorem confined_close (sound : h.Sound) (on : ∀ x, h.handle? i = some x → Within shared own h x.node) :
    Confined shared own h (h.close i) :=
  .of_handle (later_close sound i) (length_nodes_close i h) (names_close i h) (fun _ => spares_close sound) on

theorem confined_read (sound : h.Sound) (room : Nat) (on : ∀ x, h.handle? i = some x → Within shared own h x.node) :
    Confined shared own h (h.read i room).2 := by
  have same : (h.read i room).2.nodes.length = h.nodes.length ∧ (h.read i room).2.names = h.names := by
    obtain same | ⟨x, -, ⟨offset, same⟩ | ⟨b, -, same⟩⟩ := read_moves i room h <;> rw [same]
    · exact ⟨rfl, rfl⟩
    · exact ⟨rfl, rfl⟩
    · exact ⟨List.length_modify .., rfl⟩
  exact .of_handle (later_read (n := 0) sound room).1 same.1 same.2 (fun _ => (later_read sound room).2) on

theorem confined_write (sound : h.Sound) (bytes : List UInt8)
    (on : ∀ x, h.handle? i = some x → Within shared own h x.node) : Confined shared own h (h.write i bytes).2 := by
  have same : (h.write i bytes).2.nodes.length = h.nodes.length ∧ (h.write i bytes).2.names = h.names := by
    obtain same | ⟨x, -, ⟨written, offset, same⟩ | ⟨b, same⟩⟩ := write_moves i bytes h <;> rw [same]
    · exact ⟨rfl, rfl⟩
    · exact ⟨List.length_modify .., rfl⟩
    · exact ⟨List.length_modify .., rfl⟩
  exact .of_handle (later_write (n := 0) sound bytes).1 same.1 same.2 (fun _ => (later_write sound bytes).2) on

theorem confined_adding (sound : h.Sound) (there : x.node < h.nodes.length) (on : Within shared own h x.node) :
    Confined shared own h (h.adding (some x)) where
  toLater := later_adding sound there
  grows := Nat.le_refl _
  name _ _ := rfl
  fresh _ at? := .inl at?
  others _ _ away := spares_adding sound there fun same => away (same ▸ on)

theorem confined_setContent (sound : h.Sound) {c : Content} (noDirectory : c ≠ .directory)
    (noLink : ∀ target, c ≠ .link target) (on : Within shared own h n) : Confined shared own h (h.setContent n c) where
  toLater := later_setContent sound noDirectory noLink
  grows := by simp [setContent]
  name _ _ := rfl
  fresh _ at? := .inl at?
  others _ _ away := spares_setContent sound noDirectory noLink fun same => away (same ▸ on)

theorem confined_forget (sound : h.Sound) : Confined shared own h (h.forget own) where
  toLater := later_forget sound
  grows := Nat.le_refl _
  name place other := by rw [nodeOf?_forget, if_neg other]
  fresh _ at? := by
    rw [nodeOf?_forget, if_pos rfl] at at?
    cases at?
  others n _ away := spares_forget sound fun at? => away (.inr at?)

theorem confined_unlink (sound : h.Sound) (leads : ∀ place, h.walk false path = .ok place → place = own) :
    Confined shared own h (h.unlink path).2 := by
  obtain same | ⟨place, walked, same⟩ := unlink_cases path h
  · rw [same]
    exact .refl sound
  · rw [same, leads place walked]
    exact confined_forget sound

theorem confined_create (sound : h.Sound) (free : h.nodeOf? own = none) {node : Node}
    (noDirectory : node.content ≠ .directory) (noLink : ∀ target, node.content ≠ .link target) :
    Confined shared own h (h.create own node) where
  toLater := later_create sound free noDirectory noLink
  grows := by simp [create]
  name place other := by rw [nodeOf?_create free, if_neg other]
  fresh n at? := by
    rw [nodeOf?_create free, if_pos rfl] at at?
    exact .inr (Nat.le_of_eq (Option.some.inj at?))
  others n old _ := spares_create sound free noDirectory noLink old

end Calls

end Host

end DiscCatalog
