import Mathlib.Data.List.Nodup
import Mathlib.Data.List.Perm.Basic

namespace DiscCatalog

variable {α : Type} {n : String} {a : α} {es es' : List (String × α)} {e : String × α}

theorem mem_of_lookup (found : es.lookup n = some a) : (n, a) ∈ es := by
  obtain ⟨before, after, entries, -⟩ := List.lookup_eq_some_iff.1 found
  rw [entries]
  simp

theorem ne_of_lookup (gone : es.lookup n = none) (there : e ∈ es) : e.1 ≠ n := by
  rintro rfl
  simpa using List.lookup_eq_none_iff.1 gone e there

theorem lookup_of_mem (names : (es.map Prod.fst).Nodup) (there : (n, a) ∈ es) : es.lookup n = some a := by
  obtain ⟨before, after, rfl⟩ := List.append_of_mem there
  refine List.lookup_eq_some_iff.2 ⟨before, after, rfl, fun e inside => ?_⟩
  rw [List.map_append, List.map_cons, List.nodup_append] at names
  have apart := names.2.2 e.1 (List.mem_map_of_mem inside) n List.mem_cons_self
  simpa using apart.symm

theorem lookup_of_perm (names : (es.map Prod.fst).Nodup) (h : es.Perm es') (n : String) :
    es.lookup n = es'.lookup n := by
  cases found : es.lookup n with
  | none =>
    refine (List.lookup_eq_none_iff.2 fun e there => ?_).symm
    simpa using (ne_of_lookup found (h.mem_iff.2 there)).symm
  | some a => exact (lookup_of_mem (names.perm (h.map Prod.fst)) (h.mem_iff.1 (mem_of_lookup found))).symm

end DiscCatalog
