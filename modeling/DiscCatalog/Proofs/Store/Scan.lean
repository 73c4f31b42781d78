import DiscCatalog.Proofs.Store.Rows

namespace DiscCatalog

namespace Table

variable {ρ κ : Type} [LT κ] [Keyed ρ κ] [DecidableLT κ] [KeyOrder κ]

theorem filter_after_head {rows : List ρ} {e : ρ} {rest : List ρ} (chosen : ρ → Bool)
    (ordered : rows.Pairwise fun a b => key a < key b) (h : rows.filter chosen = e :: rest) :
    (rows.filter (key e < key ·)).filter chosen = rest := by
  have later : (e :: rest).Pairwise fun a b => key a < key b := h ▸ ordered.filter _
  have swap : (rows.filter (key e < key ·)).filter chosen = (rows.filter chosen).filter (key e < key ·) := by
    simp only [List.filter_filter, Bool.and_comm]
  have all : rest.filter (key e < key ·) = rest := by
    rw [List.filter_eq_self]
    intro x hx
    simpa using (List.pairwise_cons.1 later).1 x hx
  rw [swap, h, List.filter_cons_of_neg (by simpa using KeyOrder.irrefl (key e)), all]

theorem filter_after {t : Table ρ} {j k : κ} (h : j < k) : (t.after j).filter (k < key ·) = t.after k := by
  simp only [after, List.filter_filter]
  apply List.filter_congr
  intro x _
  have both : k < key x → j < key x := KeyOrder.trans h
  by_cases hk : k < key x <;> simp [hk, both]

end Table

namespace Store

def pending (query : String) (s : Store) : List CatalogEntry :=
  s.ahead.filter (Text.contains ·.catalog query)

theorem findNext_of_nil {query : String} {s : Store} (h : s.pending query = []) :
    s.findNext query false = (none, { s with scan := .done }) := by
  have none : s.ahead.find? (Text.contains ·.catalog query) = none := by
    rw [← List.head?_filter, ← pending, h, List.head?_nil]
  simp only [findNext, Bool.false_eq_true, ↓reduceIte, none]

theorem findNext_of_cons {query : String} {s : Store} {e : CatalogEntry} {rest : List CatalogEntry}
    (h : s.pending query = e :: rest) :
    s.findNext query false = (some e, { s with scan := .after e.catalog }) := by
  have found : s.ahead.find? (Text.contains ·.catalog query) = some e := by
    rw [← List.head?_filter, ← pending, h, List.head?_cons]
  simp only [findNext, Bool.false_eq_true, ↓reduceIte, found]

theorem ahead_sublist (s : Store) : s.ahead.Sublist s.catalogs.rows := by
  unfold ahead
  split
  · exact List.Sublist.refl _
  · exact List.filter_sublist
  · exact List.nil_sublist _

theorem pairwise_ahead (s : Store) : s.ahead.Pairwise fun a b => key a < key b :=
  s.catalogs.ordered.sublist s.ahead_sublist

/-- After a match is taken the other matches are before the scan. -/
theorem pending_after {query : String} {s : Store} {e : CatalogEntry} {rest : List CatalogEntry}
    (h : s.pending query = e :: rest) : { s with scan := .after e.catalog }.pending query = rest := by
  have passed : s.ahead.filter (key e < key ·) = s.catalogs.after (key e) := by
    have there : e ∈ s.ahead := (List.mem_filter.1 (h ▸ List.mem_cons_self : e ∈ s.pending query)).1
    cases hs : s.scan with
    | start => rw [ahead, hs]; rfl
    | after k =>
      rw [ahead, hs] at there
      have past : k < key e := by simpa [Table.after] using (List.mem_filter.1 there).2
      rw [ahead, hs]
      exact Table.filter_after past
    | done => rw [ahead, hs] at there; cases there
  have taken := Table.filter_after_head (fun x : CatalogEntry => Text.contains x.catalog query)
    s.pairwise_ahead h
  rwa [passed] at taken

theorem length_pending_le (query : String) (s : Store) : (s.pending query).length ≤ s.catalogs.size :=
  (List.filter_sublist.trans s.ahead_sublist).length_le

theorem findNext_eq (query : String) (first : Bool) (s : Store) :
    ∃ scan, (s.findNext query first).2 = { s with scan } := by
  unfold findNext
  cases first <;> dsimp only <;> split <;> exact ⟨_, rfl⟩

theorem mem_of_mem_ahead {s : Store} {e : CatalogEntry} (h : e ∈ s.ahead) : e ∈ s.catalogs.rows :=
  s.ahead_sublist.subset h

theorem mem_of_findNext {query : String} {first : Bool} {s : Store} {e : CatalogEntry}
    (h : (s.findNext query first).1 = some e) : e ∈ s.catalogs.rows := by
  unfold findNext at h
  dsimp only at h
  split at h
  · next found =>
    cases h
    have there := mem_of_mem_ahead (List.mem_of_find?_eq_some found)
    cases first <;> exact there
  · cases h

theorem scan_eq (query : String) (room : Nat) (first : Bool) (s : Store) :
    ∃ scan, (RecordStore.memory.scan query room first s).2 = { s with scan } := by
  induction room generalizing first s with
  | zero => exact ⟨s.scan, rfl⟩
  | succ room ih =>
    obtain ⟨scan, after⟩ := findNext_eq query first s
    have next : RecordStore.memory.findNext query first s = s.findNext query first := rfl
    rw [RecordStore.scan, next]
    cases found : s.findNext query first with
    | mk entry t =>
      rw [found] at after
      cases after
      cases entry with
      | none => exact ⟨scan, rfl⟩
      | some entry => exact ih false { s with scan }

theorem keysHold_performAll (history : List StoreCall) {s : Store} (h : s.KeysHold) :
    (RecordStore.memory.performAll history s).KeysHold := by
  induction history generalizing s with
  | nil => exact h
  | cons call history ih =>
    refine ih ?_
    cases call with
    | change c => exact h.change c
    | catalog | track => exact h
    | find query first =>
      obtain ⟨scan, same⟩ := findNext_eq query first s
      change (s.findNext query first).2.KeysHold
      rw [same]
      exact ⟨h.catalogs, h.tracks⟩
    | findAll query =>
      obtain ⟨scan, same⟩ := scan_eq query (s.catalogs.size + 1) true s
      change (RecordStore.memory.scan query (s.catalogs.size + 1) true s).2.KeysHold
      rw [same]
      exact ⟨h.catalogs, h.tracks⟩

end Store

end DiscCatalog
