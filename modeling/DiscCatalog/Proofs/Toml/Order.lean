import DiscCatalog.Proofs.Toml.Names

namespace DiscCatalog.Toml

/-- The same entries in another order. A table may also have been written in another form. -/
inductive Entries.Rearranged : Entries → Entries → Prop where
  | perm {es es' : Entries} (h : List.Perm es es') : Rearranged es es'
  | within {before after inner inner' : Entries} {name : String} {form form' : Form} (h : Rearranged inner inner') :
      Rearranged (before ++ (name, .table form inner) :: after) (before ++ (name, .table form' inner') :: after)
  | trans {es es' es'' : Entries} (h : Rearranged es es') (h' : Rearranged es' es'') : Rearranged es es''

/-- The same value, or two tables with the same entries in another order. -/
inductive Value.Rearranged : Value → Value → Prop where
  | same (v : Value) : Rearranged v v
  | table {form form' : Form} {inner inner' : Entries} (h : inner.Rearranged inner') :
      Rearranged (.table form inner) (.table form' inner')

theorem Value.Rearranged.trans {v v' v'' : Value} (h : v.Rearranged v') (h' : v'.Rearranged v'') :
    v.Rearranged v'' := by
  cases h with
  | same => exact h'
  | table h =>
    cases h' with
    | same => exact .table h
    | table h' => exact .table (h.trans h')

theorem Value.Rearranged.found_same (o : Option Value) : Option.Rel Value.Rearranged o o := by
  cases o with
  | none => exact .none
  | some v => exact .some (.same v)

theorem Value.Rearranged.found_trans {o o' o'' : Option Value} (h : Option.Rel Value.Rearranged o o')
    (h' : Option.Rel Value.Rearranged o' o'') : Option.Rel Value.Rearranged o o'' := by
  cases h with
  | none => exact h'
  | some h =>
    cases h' with
    | some h' => exact .some (h.trans h')

namespace Entries.Rearranged

variable {es es' : Entries}

theorem symm (h : es.Rearranged es') : es'.Rearranged es := by
  induction h with
  | perm h => exact .perm h.symm
  | within _ ih => exact .within ih
  | trans _ _ ih ih' => exact ih'.trans ih

theorem length (h : es.Rearranged es') : es.length = es'.length := by
  induction h with
  | perm h => exact h.length_eq
  | within => simp
  | trans _ _ ih ih' => exact ih.trans ih'

theorem named (h : es.Rearranged es') (named : es.Named) : es'.Named := by
  induction h with
  | perm h =>
    obtain ⟨names, inside⟩ := named_iff.1 named
    exact named_iff.2 ⟨(h.map Prod.fst).nodup_iff.1 names, fun e there => inside e (h.mem_iff.2 there)⟩
  | @within before after inner inner' name form form' h ih =>
    obtain ⟨names, inside⟩ := named_iff.1 named
    refine named_iff.2 ⟨by simpa using names, fun e there => ?_⟩
    have known := ih (Value.named_table.1 (inside (name, .table form inner) (by simp)))
    obtain there | rfl | there := by simpa using there
    · exact inside e (by simp [there])
    · exact Value.named_table.2 known
    · exact inside e (by simp [there])
  | trans _ _ ih ih' => exact ih' (ih named)

theorem lookup (h : es.Rearranged es') (named : es.Named) (name : String) :
    Option.Rel Value.Rearranged (es.lookup name) (es'.lookup name) := by
  induction h with
  | perm h => exact lookup_of_perm (named_iff.1 named).1 h name ▸ Value.Rearranged.found_same _
  | @within before after inner inner' key form form' h _ =>
    rw [List.lookup_append, List.lookup_append]
    cases before.lookup name with
    | some v => exact Value.Rearranged.found_same _
    | none =>
      simp only [Option.none_or, List.lookup_cons]
      cases name == key with
      | true => exact .some (.table h)
      | false => exact Value.Rearranged.found_same _
  | trans h _ ih ih' => exact Value.Rearranged.found_trans (ih named) (ih' (h.named named))

theorem eq_nil (h : Rearranged [] es) : es = [] := List.length_eq_zero_iff.1 h.length.symm

theorem singleton {name : String} {v : Value} (h : Rearranged [(name, v)] es) (named : v.Named) :
    ∃ v', es = [(name, v')] ∧ v.Rearranged v' := by
  have single : Named [(name, v)] := named_iff.2 ⟨List.nodup_singleton name, by simpa using named⟩
  obtain ⟨⟨name', v'⟩, rfl⟩ := List.length_eq_one_iff.1 h.length.symm
  have found := h.lookup single name
  simp only [List.lookup_cons, beq_self_eq_true] at found
  cases same : name == name' with
  | true =>
    rw [same] at found
    cases found with
    | some alike => exact ⟨v', by rw [eq_of_beq same], alike⟩
  | false =>
    rw [same] at found
    cases found

end Entries.Rearranged

theorem Value.Rearranged.symm {v v' : Value} (h : v.Rearranged v') : v'.Rearranged v := by
  cases h with
  | same => exact .same v
  | table h => exact .table h.symm

theorem Value.Rearranged.named {v v' : Value} (h : v.Rearranged v') (named : v.Named) : v'.Named := by
  cases h with
  | same => exact named
  | table h => exact Value.named_table.2 (h.named (Value.named_table.1 named))

end DiscCatalog.Toml
