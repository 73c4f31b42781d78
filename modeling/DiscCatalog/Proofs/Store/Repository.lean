import DiscCatalog.Proofs.Store.Scan
import DiscCatalog.Repository

namespace DiscCatalog

namespace Repository

theorem findNext_tables (query : String) (first : Bool) (r : Repository) :
    (r.findNext query first).1 = (r.tables.findNext query first).1 ∧
      (r.findNext query first).2.tables = (r.tables.findNext query first).2 := by
  cases r <;> exact ⟨rfl, rfl⟩

theorem change_tables (c : Change) (r : Repository) (h : Host) :
    (change c (r, h)).2.1.tables = r.tables ∨ r.tables.apply c = .ok (change c (r, h)).2.1.tables := by
  cases r with
  | memory tables =>
    cases made : tables.apply c with
    | ok after => exact .inr (by simp only [change, made, Repository.tables])
    | error f => exact .inl (by simp only [change, made, Repository.tables])
  | archive opened =>
    cases made : opened.tables.apply c with
    | error f => exact .inl (by simp only [change, Archive.change, made, tables])
    | ok after =>
      cases written : Archive.writeFor c opened.directory opened.owner after h with
      | mk outcome h =>
        cases outcome with
        | ok => exact .inr (by simp only [change, Archive.change, made, written, tables])
        | error f => exact .inl (by simp only [change, Archive.change, made, written, tables])

def pending (query : String) (first : Bool) (r : Repository) : List CatalogEntry :=
  (if first then { r.tables with scan := .start } else r.tables).pending query

theorem length_pending_le (query : String) (first : Bool) (r : Repository) :
    (r.pending query first).length ≤ r.tables.catalogs.size := by
  unfold pending
  cases first <;> exact Store.length_pending_le _ _

theorem findNext_restarted (query : String) (first : Bool) (r : Repository) :
    r.tables.findNext query first =
      (if first then { r.tables with scan := .start } else r.tables).findNext query false := by
  cases first <;> rfl

theorem findNext_of_nil {query : String} {first : Bool} {r : Repository} (h : r.pending query first = []) :
    (r.findNext query first).1 = none := by
  rw [(findNext_tables query first r).1, findNext_restarted, Store.findNext_of_nil h]

theorem findNext_of_cons {query : String} {first : Bool} {r : Repository} {e : CatalogEntry}
    {rest : List CatalogEntry} (h : r.pending query first = e :: rest) :
    (r.findNext query first).1 = some e ∧ (r.findNext query first).2.pending query false = rest := by
  obtain ⟨found, tables⟩ := findNext_tables query first r
  rw [findNext_restarted, Store.findNext_of_cons h] at found tables
  refine ⟨found, ?_⟩
  rw [pending, tables]
  exact Store.pending_after h

end Repository

end DiscCatalog
