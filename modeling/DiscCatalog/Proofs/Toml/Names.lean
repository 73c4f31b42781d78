import DiscCatalog.Proofs.Entries
import DiscCatalog.Toml.Document

namespace DiscCatalog.Toml

inductive Entries.Named : Entries → Prop where
  | intro {es : Entries} (names : (es.map Prod.fst).Nodup)
      (inside : ∀ name form inner, (name, Value.table form inner) ∈ es → Named inner) : Named es

def Value.Named (v : Value) : Prop := ∀ form inner, v = .table form inner → Entries.Named inner

def Gives {α : Type} (p : α → Prop) (r : Reader α) : Prop := ∀ cs a rest, r cs = some (a, rest) → p a

def Statement.Named : Statement → Prop
  | .header _ _ | .repeated _ _ => True
  | .assign _ _ v => v.Named

theorem Value.named_table {form : Form} {inner : Entries} : (Value.table form inner).Named ↔ inner.Named := by
  constructor
  · intro h
    exact h form inner rfl
  · rintro h _ _ ⟨⟩
    exact h

theorem Value.named_of_ne {v : Value} (h : ∀ form inner, v ≠ .table form inner) : v.Named :=
  fun form inner table => absurd table (h form inner)

namespace Entries

variable {es es' : Entries} {k : String} {v : Value} {path : List String}

theorem named_iff : es.Named ↔ (es.map Prod.fst).Nodup ∧ ∀ e ∈ es, e.2.Named := by
  constructor
  · rintro ⟨names, inside⟩
    refine ⟨names, fun e there form inner table => inside e.1 form inner ?_⟩
    rw [← table]
    exact there
  · rintro ⟨names, inside⟩
    exact ⟨names, fun name form inner there => inside _ there form inner rfl⟩

theorem named_nil : Named [] := named_iff.2 ⟨List.nodup_nil, by simp⟩

theorem Named.lookup (h : es.Named) (found : es.lookup k = some v) : v.Named :=
  (named_iff.1 h).2 _ (mem_of_lookup found)

theorem Named.append (h : es.Named) (fresh : es.lookup k = none) (hv : v.Named) : (es ++ [(k, v)]).Named := by
  obtain ⟨names, inside⟩ := named_iff.1 h
  refine named_iff.2 ⟨?_, fun e there => ?_⟩
  · rw [List.map_append, List.nodup_append]
    refine ⟨names, List.nodup_singleton k, fun name there _ new => ?_⟩
    obtain ⟨e, inEntries, rfl⟩ := List.mem_map.1 there
    rw [List.map_singleton, List.mem_singleton] at new
    exact new ▸ ne_of_lookup fresh inEntries
  · obtain there | rfl := by simpa using there
    · exact inside e there
    · exact hv

theorem mem_of_mem_set {e : String × Value} (there : e ∈ set k v es) : e = (k, v) ∨ e ∈ es := by
  induction es with
  | nil => exact .inl (by simpa [set] using there)
  | cons first rest ih =>
    rw [set] at there
    split at there
    case isTrue same =>
      obtain rfl | there := List.mem_cons.1 there
      · exact .inl (by rw [same])
      · exact .inr (List.mem_cons_of_mem _ there)
    case isFalse =>
      obtain rfl | there := List.mem_cons.1 there
      · exact .inr List.mem_cons_self
      · exact (ih there).imp_right (List.mem_cons_of_mem _)

theorem nodup_set (names : (es.map Prod.fst).Nodup) : ((set k v es).map Prod.fst).Nodup := by
  induction es with
  | nil => simp [set]
  | cons first rest ih =>
    obtain ⟨new, names⟩ := List.nodup_cons.1 names
    rw [set]
    split
    case isTrue => exact List.nodup_cons.2 ⟨new, names⟩
    case isFalse other =>
      refine List.nodup_cons.2 ⟨fun again => ?_, ih names⟩
      obtain ⟨e, there, same⟩ := List.mem_map.1 again
      obtain rfl | there := mem_of_mem_set there
      · exact other same.symm
      · exact new (same ▸ List.mem_map_of_mem there)

theorem Named.set (h : es.Named) (hv : v.Named) : (set k v es).Named := by
  obtain ⟨names, inside⟩ := named_iff.1 h
  refine named_iff.2 ⟨nodup_set names, fun e there => ?_⟩
  obtain rfl | there := mem_of_mem_set there
  · exact hv
  · exact inside e there

/-- The change at the end of the path is all that has to be looked at: the tables on the way take the place of
tables. -/
theorem Named.descend {dotted : Bool} {f : Form → Entries → Option Entries} {form : Form}
    (keeps : ∀ form inner inner', inner.Named → f form inner = some inner' → inner'.Named) (h : es.Named)
    (went : descend dotted f path form es = some es') : es'.Named := by
  induction path generalizing form es es' with
  | nil => exact keeps form es es' h went
  | cons key path ih =>
    rw [Entries.descend.eq_def] at went
    dsimp only at went
    split at went
    case h_1 =>
      obtain ⟨inner, below, ⟨⟩⟩ := Option.bind_eq_some_iff.1 went
      exact h.set (Value.named_table.2 (ih named_nil below))
    case h_2 form' known found =>
      split at went
      case isTrue => cases went
      case isFalse =>
        obtain ⟨inner, below, ⟨⟩⟩ := Option.bind_eq_some_iff.1 went
        exact h.set (Value.named_table.2 (ih (Value.named_table.1 (h.lookup found)) below))
    case h_3 =>
      split at went
      case h_1 => cases went
      case h_2 =>
        obtain ⟨inner, below, ⟨⟩⟩ := Option.bind_eq_some_iff.1 went
        exact h.set (Value.named_of_ne (by simp))
    case h_4 => cases went

theorem Named.insert (h : es.Named) (hv : v.Named) (added : insert path k v es = some es') : es'.Named := by
  refine h.descend (fun form inner inner' named done => ?_) added
  split at done
  case isTrue => cases done
  case isFalse =>
    split at done
    case isTrue => cases done
    case isFalse fresh =>
      cases done
      exact named.append (Option.not_isSome_iff_eq_none.1 fresh) hv

theorem Named.openTable (h : es.Named) (opened : openTable path k es = some es') : es'.Named := by
  refine h.descend (fun form inner inner' named done => ?_) opened
  split at done
  case h_1 fresh =>
    cases done
    exact named.append fresh (Value.named_table.2 named_nil)
  case h_2 known found =>
    cases done
    exact named.set (Value.named_table.2 (Value.named_table.1 (named.lookup found)))
  case h_3 => cases done

theorem Named.openRepeated (h : es.Named) (opened : openRepeated path k es = some es') : es'.Named := by
  refine h.descend (fun form inner inner' named done => ?_) opened
  split at done
  case h_1 fresh =>
    cases done
    exact named.append fresh (Value.named_of_ne (by simp))
  case h_2 =>
    cases done
    exact named.set (Value.named_of_ne (by simp))
  case h_3 => cases done

end Entries

theorem Draft.named_add {d d' : Draft} {s : Statement} (h : d.entries.Named) (hs : s.Named)
    (added : d.add s = some d') : d'.entries.Named := by
  cases s with
  | header path key =>
    obtain ⟨es, opened, rfl⟩ := Option.map_eq_some_iff.1 added
    exact h.openTable opened
  | repeated path key =>
    obtain ⟨es, opened, rfl⟩ := Option.map_eq_some_iff.1 added
    exact h.openRepeated opened
  | assign path key v =>
    obtain ⟨es, went, rfl⟩ := Option.map_eq_some_iff.1 added
    exact h.descend (fun _ _ _ named done => named.insert hs done) went

theorem foldlM_keeps {α β : Type} {p : β → Prop} {f : β → α → Option β} {as : List α} {b b' : β}
    (step : ∀ a ∈ as, ∀ b b', p b → f b a = some b' → p b') (h : p b) (ran : as.foldlM f b = some b') : p b' := by
  induction as generalizing b with
  | nil => cases ran; exact h
  | cons a as ih =>
    obtain ⟨next, first, later⟩ := Option.bind_eq_some_iff.1 ran
    exact ih (fun a there => step a (List.mem_cons_of_mem _ there)) (step a List.mem_cons_self b next h first) later

theorem named_of_assemble {statements : List Statement} {es : Entries} (hs : ∀ s ∈ statements, s.Named)
    (made : assemble statements = some es) : es.Named := by
  obtain ⟨d, ran, rfl⟩ := Option.map_eq_some_iff.1 made
  exact foldlM_keeps (p := fun d : Draft => d.entries.Named)
    (fun s there _ _ named added => Draft.named_add named (hs s there) added) Entries.named_nil ran

theorem named_of_inRange {n : Int} {v : Value} (h : inRange n = some v) : v.Named := by
  obtain ⟨-, read⟩ := Option.ite_none_right_eq_some.1 h
  cases read
  exact Value.named_of_ne (by simp)

theorem named_of_based {base : Nat} {cs rest : List Char} {v : Value} (h : based base cs = some (v, rest)) :
    v.Named := by
  obtain ⟨⟨ds, rest⟩, -, h⟩ := Option.bind_eq_some_iff.1 h
  obtain ⟨v, ranged, ⟨⟩⟩ := Option.bind_eq_some_iff.1 h
  exact named_of_inRange ranged

theorem named_of_realAfter {negative : Bool} {whole cs rest : List Char} {v : Value}
    (h : realAfter negative whole cs = some (v, rest)) : v.Named := by
  unfold realAfter at h
  split at h
  case h_1 | h_2 =>
    obtain ⟨⟨fraction, cs⟩, -, h⟩ := Option.bind_eq_some_iff.1 h
    obtain ⟨⟨e, cs⟩, -, h⟩ := Option.bind_eq_some_iff.1 h
    obtain ⟨-, read⟩ := Option.ite_none_left_eq_some.1 h
    cases read
    exact Value.named_of_ne (by simp)

theorem named_of_signedNumber {negative : Bool} {cs rest : List Char} {v : Value}
    (h : signedNumber negative cs = some (v, rest)) : v.Named := by
  unfold signedNumber at h
  split at h
  case h_1 | h_2 =>
    cases h
    exact Value.named_of_ne (by simp)
  case h_3 =>
    obtain ⟨⟨whole, rest⟩, -, h⟩ := Option.bind_eq_some_iff.1 h
    dsimp only at h
    split at h
    case h_1 | h_2 | h_3 => exact named_of_realAfter h
    case h_4 =>
      obtain ⟨v, ranged, ⟨⟩⟩ := Option.bind_eq_some_iff.1 h
      exact named_of_inRange ranged

theorem named_of_numberOrDate {cs rest : List Char} {v : Value} (h : numberOrDate cs = some (v, rest)) :
    v.Named := by
  unfold numberOrDate at h
  split at h
  case isTrue =>
    obtain ⟨-, -, ⟨⟩⟩ := Option.map_eq_some_iff.1 h
    exact Value.named_of_ne (by simp)
  case isFalse =>
    split at h
    case isTrue =>
      obtain ⟨-, -, ⟨⟩⟩ := Option.map_eq_some_iff.1 h
      exact Value.named_of_ne (by simp)
    case isFalse =>
      split at h
      · exact named_of_based h
      · exact named_of_based h
      · exact named_of_based h
      · exact named_of_signedNumber h

theorem named_of_assignment {item : Reader Value} (hi : Gives Value.Named item) :
    Gives (·.2.2.Named) (assignment item) := by
  intro cs a rest h
  obtain ⟨⟨⟨path, name⟩, cs⟩, -, h⟩ := Option.bind_eq_some_iff.1 h
  obtain ⟨cs, -, h⟩ := Option.bind_eq_some_iff.1 h
  obtain ⟨⟨v, rest⟩, read, ⟨⟩⟩ := Option.bind_eq_some_iff.1 h
  exact hi _ v rest read

theorem named_of_tableItems {item : Reader Value} (hi : Gives Value.Named item) (room : Nat) :
    Gives (∀ a ∈ ·, a.2.2.Named) (tableItems item room) := by
  induction room with
  | zero => rintro _ _ _ ⟨⟩
  | succ room ih =>
    intro cs as rest h
    obtain ⟨⟨a, cs⟩, first, h⟩ := Option.bind_eq_some_iff.1 h
    have named : a.2.2.Named := named_of_assignment hi _ a cs first
    dsimp only at h
    split at h
    case h_1 =>
      cases h
      simpa using named
    case h_2 =>
      obtain ⟨⟨later, rest⟩, read, ⟨⟩⟩ := Option.bind_eq_some_iff.1 h
      exact List.forall_mem_cons.2 ⟨named, ih _ later rest read⟩
    case h_3 => cases h

theorem named_of_inlineTable {item : Reader Value} (hi : Gives Value.Named item) :
    Gives Value.Named (inlineTable item) := by
  intro cs v rest h
  unfold inlineTable at h
  split at h
  case h_1 =>
    cases h
    exact Value.named_table.2 Entries.named_nil
  case h_2 =>
    obtain ⟨⟨as, rest⟩, read, h⟩ := Option.bind_eq_some_iff.1 h
    obtain ⟨es, ran, ⟨⟩⟩ := Option.bind_eq_some_iff.1 h
    have named := named_of_tableItems hi _ _ as rest read
    exact Value.named_table.2
      (foldlM_keeps (fun a there _ _ h added => h.insert (named a there) added) Entries.named_nil ran)

theorem named_of_value (depth : Nat) : Gives Value.Named (value depth) := by
  induction depth using Nat.strongRecOn with
  | ind depth ih =>
    intro cs v rest h
    rw [value.eq_def] at h
    dsimp only at h
    split at h
    case h_1 | h_2 =>
      obtain ⟨⟨s, rest⟩, -, ⟨⟩⟩ := Option.map_eq_some_iff.1 h
      exact Value.named_of_ne (by simp)
    case h_3 =>
      obtain ⟨⟨items, rest⟩, -, ⟨⟩⟩ := Option.map_eq_some_iff.1 h
      exact Value.named_of_ne (by simp)
    case h_4 rest depth => exact named_of_inlineTable (ih depth (Nat.lt_succ_self depth)) _ v _ h
    case h_5 | h_6 | h_7 | h_8 =>
      cases h
      exact Value.named_of_ne (by simp)
    case h_9 => exact named_of_numberOrDate (Option.ite_none_right_eq_some.1 h).2
    case h_10 => cases h

theorem named_of_statements {room : Nat} {cs : List Char} {ss : List Statement} (h : statements room cs = some ss) :
    ∀ s ∈ ss, s.Named := by
  induction room generalizing cs ss with
  | zero => cases h
  | succ room ih =>
    rw [statements] at h
    split at h
    case h_1 =>
      cases h
      simp
    case h_2 =>
      obtain ⟨rest, -, h⟩ := Option.bind_eq_some_iff.1 h
      exact ih h
    case h_3 | h_4 =>
      obtain ⟨⟨⟨path, name⟩, rest⟩, -, h⟩ := Option.bind_eq_some_iff.1 h
      obtain ⟨later, read, ⟨⟩⟩ := Option.bind_eq_some_iff.1 h
      exact List.forall_mem_cons.2 ⟨trivial, ih read⟩
    case h_5 =>
      split at h
      case h_1 => exact ih h
      case h_2 =>
        obtain ⟨⟨⟨path, name, v⟩, rest⟩, first, h⟩ := Option.bind_eq_some_iff.1 h
        obtain ⟨rest, -, h⟩ := Option.bind_eq_some_iff.1 h
        obtain ⟨later, read, ⟨⟩⟩ := Option.bind_eq_some_iff.1 h
        exact List.forall_mem_cons.2 ⟨named_of_assignment (named_of_value _) _ _ _ first, ih read⟩

theorem named_of_parse {text : String} {es : Entries} (h : parse text = some es) : es.Named := by
  obtain ⟨ss, read, made⟩ := Option.bind_eq_some_iff.1 h
  exact named_of_assemble (named_of_statements read) made

end DiscCatalog.Toml
