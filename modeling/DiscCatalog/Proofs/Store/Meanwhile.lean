import DiscCatalog.Proofs.Store.Repository

namespace DiscCatalog

namespace Table

variable {ρ κ : Type} [LT κ] [Keyed ρ κ] [KeyOrder κ]

theorem eq_of_key_eq {rows : List ρ} (ordered : rows.Pairwise fun a b => key a < key b) {x y : ρ} (hx : x ∈ rows)
    (hy : y ∈ rows) (same : key x = key y) : x = y := by
  induction ordered with
  | nil => cases hx
  | @cons r rest later _ ih =>
    obtain rfl | inRest := List.mem_cons.1 hx <;> obtain rfl | inRest' := List.mem_cons.1 hy
    · rfl
    · exact absurd (same ▸ later y inRest') (KeyOrder.irrefl _)
    · exact absurd (same ▸ later x inRest) (KeyOrder.irrefl _)
    · exact ih inRest inRest'

theorem find?_of_mem [DecidableEq κ] {t : Table ρ} {r : ρ} (h : r ∈ t.rows) : t.find? (key r) = some r := by
  cases found : t.find? (key r) with
  | none => exact absurd (List.find?_eq_none.1 found r h) (by simp)
  | some x =>
    obtain ⟨there, same⟩ := mem_of_find? found
    rw [eq_of_key_eq t.ordered there h same]

end Table

/-- Something that happens to a store while a scan of it is under way: a change other than a reset, made or
failed, a lookup, or whatever becomes of its machine. -/
inductive Meanwhile where
  | change (c : Change) (kept : c ≠ .reset)
  | catalog (key : String)
  | track (key : String) (number : Int32)
  | machine (h : Host)

namespace Meanwhile

def after (s : Repository × Host) : Meanwhile → Repository × Host
  | change c _ => (Repository.recordStore.perform (.change c) s).2
  | catalog key => (Repository.recordStore.perform (.catalog key) s).2
  | track key number => (Repository.recordStore.perform (.track key number) s).2
  | machine h => (s.1, h)

def Puts : Meanwhile → Prop
  | change (.putCatalog _) _ | change (.putTrack _) _ => True
  | _ => False

theorem after_tables (s : Repository × Host) (m : Meanwhile) :
    (after s m).1.tables = s.1.tables ∨
      ∃ c kept, m = .change c kept ∧ s.1.tables.apply c = .ok (after s m).1.tables := by
  cases m with
  | change c kept => exact (Repository.change_tables c s.1 s.2).imp id fun made => ⟨c, kept, rfl, made⟩
  | catalog | track | machine => exact .inl rfl

theorem scan_apply {c : Change} {s t : Store} (kept : c ≠ .reset) (h : s.apply c = .ok t) : t.scan = s.scan := by
  obtain ⟨e, -, -, rfl⟩ | ⟨e, -, -, rfl⟩ | ⟨key, -, -, rfl⟩ | ⟨key, number, -, -, rfl⟩ | ⟨rfl, -⟩ :=
    Store.apply_eq_ok h
  · rfl
  · rfl
  · rfl
  · rfl
  · exact absurd rfl kept

theorem scan_after (s : Repository × Host) (m : Meanwhile) : (after s m).1.tables.scan = s.1.tables.scan := by
  obtain same | ⟨c, kept, -, made⟩ := after_tables s m
  · rw [same]
  · exact scan_apply kept made

theorem scan_foldl (gap : List Meanwhile) (s : Repository × Host) :
    (gap.foldl after s).1.tables.scan = s.1.tables.scan := by
  induction gap generalizing s with
  | nil => rfl
  | cons m gap ih => exact (ih (after s m)).trans (scan_after s m)

theorem sublist_after {m : Meanwhile} (none : ¬ m.Puts) (s : Repository × Host) :
    (after s m).1.tables.catalogs.rows.Sublist s.1.tables.catalogs.rows := by
  have entries {t : Store} (same : (after s m).1.tables = t) (rows : t.catalogs.rows.Sublist s.1.tables.catalogs.rows) :
      (after s m).1.tables.catalogs.rows.Sublist s.1.tables.catalogs.rows := same ▸ rows
  obtain same | ⟨c, kept, rfl, made⟩ := after_tables s m
  · exact entries same (List.Sublist.refl _)
  · obtain ⟨e, rfl, -, -⟩ | ⟨e, rfl, -, -⟩ | ⟨key, rfl, -, same⟩ | ⟨key, number, rfl, -, same⟩ | ⟨rfl, -⟩ :=
      Store.apply_eq_ok made
    · exact absurd trivial none
    · exact absurd trivial none
    · exact entries same List.filter_sublist
    · exact entries same (List.Sublist.refl _)
    · exact absurd rfl kept

theorem sublist_foldl {gap : List Meanwhile} (none : ∀ m ∈ gap, ¬ m.Puts) (s : Repository × Host) :
    (gap.foldl after s).1.tables.catalogs.rows.Sublist s.1.tables.catalogs.rows := by
  induction gap generalizing s with
  | nil => exact List.Sublist.refl _
  | cons m gap ih =>
    obtain ⟨first, others⟩ := List.forall_mem_cons.1 none
    exact (ih others (after s m)).trans (sublist_after first s)

end Meanwhile

/-- A call of a scan: the entries that there are, and its answer. -/
structure Moment where
  catalogs : Table CatalogEntry
  answer : Option CatalogEntry

namespace Repository

def scanOn (query : String) : List (List Meanwhile) → Repository × Host → List Moment
  | [], _ => []
  | gap :: gaps, s =>
    let s := gap.foldl Meanwhile.after s
    ⟨s.1.tables.catalogs, (recordStore.findNext query false s).1⟩ ::
      scanOn query gaps (recordStore.findNext query false s).2

/-- All calls of a scan, with what happens between them. -/
def scanAmid (query : String) (gaps : List (List Meanwhile)) (s : Repository × Host) : List Moment :=
  ⟨s.1.tables.catalogs, (recordStore.findNext query true s).1⟩ ::
    scanOn query gaps (recordStore.findNext query true s).2

end Repository

namespace Scan

def Passed : Scan → String → Prop
  | start, _ => False
  | after k, key => ¬ k < key
  | done, _ => True

theorem not_passed_of_lt {place : Scan} {j k : String} (h : ¬ place.Passed j) (less : j < k) : ¬ place.Passed k := by
  cases place with
  | start => exact id
  | after i => exact not_not.2 (String.lt_trans (not_not.1 h) less)
  | done => exact absurd trivial h

end Scan

namespace Store

theorem mem_ahead_iff {s : Store} {e : CatalogEntry} :
    e ∈ s.ahead ↔ e ∈ s.catalogs.rows ∧ ¬ s.scan.Passed e.catalog := by
  unfold ahead
  cases s.scan with
  | start => simp [Scan.Passed]
  | after k => simp [Scan.Passed, Table.after, key]
  | done => simp [Scan.Passed]

theorem pending_sublist (query : String) {s t : Store} (scan : t.scan = s.scan)
    (rows : t.catalogs.rows.Sublist s.catalogs.rows) : (t.pending query).Sublist (s.pending query) := by
  unfold pending ahead
  rw [scan]
  cases s.scan with
  | start => exact rows.filter _
  | after k => exact (rows.filter _).filter _
  | done => exact List.Sublist.refl _

/-- Everything that a call of a scan can do: there is no match left, or the next one is taken. -/
theorem findNext_cases (query : String) (s : Store) :
    (s.findNext query false = (none, { s with scan := .done }) ∧
        ∀ x ∈ s.ahead, Text.contains x.catalog query = true → False) ∨
      ∃ e, s.findNext query false = (some e, { s with scan := .after e.catalog }) ∧ e ∈ s.ahead ∧
        Text.contains e.catalog query = true ∧
        ∀ x ∈ s.ahead, Text.contains x.catalog query = true → x = e ∨ e.catalog < x.catalog := by
  have mem {x : CatalogEntry} : x ∈ s.pending query ↔ x ∈ s.ahead ∧ Text.contains x.catalog query = true :=
    List.mem_filter
  cases found : s.pending query with
  | nil =>
    refine .inl ⟨findNext_of_nil found, fun x there held => ?_⟩
    have := mem.2 ⟨there, held⟩
    rw [found] at this
    cases this
  | cons e rest =>
    obtain ⟨there, held⟩ := mem.1 (found ▸ List.mem_cons_self)
    have ordered : (e :: rest).Pairwise fun a b => key a < key b := found ▸ s.pairwise_ahead.filter _
    refine .inr ⟨e, findNext_of_cons found, there, held, fun x hx match' => ?_⟩
    have later := mem.2 ⟨hx, match'⟩
    rw [found] at later
    exact (List.mem_cons.1 later).imp id fun later => (List.pairwise_cons.1 ordered).1 x later

end Store

structure Scanned (query : String) (place : Scan) (moments : List Moment) : Prop where
  answers : ∃ k, moments.map (·.answer) = (moments.filterMap (·.answer)).map some ++ List.replicate k none
  onward : ∀ e ∈ moments.filterMap (·.answer), ¬ place.Passed e.catalog
  increasing : ((moments.filterMap (·.answer)).map (·.catalog)).Pairwise (· < ·)
  matching : ∀ e ∈ moments.filterMap (·.answer), Text.contains e.catalog query = true
  stored : ∀ moment ∈ moments, ∀ e, moment.answer = some e → moment.catalogs.find? e.catalog = some e
  complete : ∀ key, Text.contains key query = true → ¬ place.Passed key →
    (moments.filterMap (·.answer)).length < moments.length →
    (∀ moment ∈ moments.take ((moments.filterMap (·.answer)).length + 1), (moment.catalogs.find? key).isSome) →
    key ∈ (moments.filterMap (·.answer)).map (·.catalog)

namespace Scanned

variable {query : String} {place : Scan} {moments : List Moment}

theorem nil : Scanned query place [] where
  answers := ⟨0, rfl⟩
  onward := by simp
  increasing := .nil
  matching := by simp
  stored := by simp
  complete := by simp

theorem eq_nil_of_done (h : Scanned query .done moments) : moments.filterMap (·.answer) = [] := by
  cases found : moments.filterMap (·.answer) with
  | nil => rfl
  | cons e rest => exact absurd trivial (h.onward e (found ▸ List.mem_cons_self))

theorem cons_none {s : Store} (h : Scanned query .done moments)
    (nothing : ∀ x ∈ s.ahead, Text.contains x.catalog query = true → False) :
    Scanned query s.scan (⟨s.catalogs, none⟩ :: moments) := by
  have empty : (⟨s.catalogs, none⟩ :: moments).filterMap (·.answer) = [] := h.eq_nil_of_done
  obtain ⟨k, answers⟩ := h.answers
  rw [h.eq_nil_of_done] at answers
  refine ⟨⟨k + 1, ?_⟩, ?_, ?_, ?_, ?_, ?_⟩
  · rw [empty, List.map_cons, answers]
    rfl
  · simp [empty]
  · simp [empty]
  · simp [empty]
  · refine List.forall_mem_cons.2 ⟨?_, h.stored⟩
    intro e given
    cases given
  · intro key held ahead _ there
    rw [empty] at there
    obtain ⟨e, found⟩ := Option.isSome_iff_exists.1 (there ⟨s.catalogs, none⟩ (by simp))
    obtain ⟨row, rfl⟩ := Table.mem_of_find? found
    exact (nothing e (Store.mem_ahead_iff.2 ⟨row, ahead⟩) held).elim

theorem cons_some {s : Store} {e : CatalogEntry} (h : Scanned query (.after e.catalog) moments) (there : e ∈ s.ahead)
    (held : Text.contains e.catalog query = true)
    (least : ∀ x ∈ s.ahead, Text.contains x.catalog query = true → x = e ∨ e.catalog < x.catalog) :
    Scanned query s.scan (⟨s.catalogs, some e⟩ :: moments) := by
  have found : (⟨s.catalogs, some e⟩ :: moments).filterMap (·.answer) = e :: moments.filterMap (·.answer) := rfl
  obtain ⟨row, ahead⟩ := Store.mem_ahead_iff.1 there
  obtain ⟨k, answers⟩ := h.answers
  have later : ∀ x ∈ moments.filterMap (·.answer), e.catalog < x.catalog := fun x hx => not_not.1 (h.onward x hx)
  refine ⟨⟨k, ?_⟩, ?_, ?_, ?_, ?_, ?_⟩
  · rw [found, List.map_cons, answers]
    rfl
  · rw [found]
    exact List.forall_mem_cons.2 ⟨ahead, fun x hx => Scan.not_passed_of_lt ahead (later x hx)⟩
  · rw [found, List.map_cons]
    exact List.pairwise_cons.2 ⟨List.forall_mem_map.2 later, h.increasing⟩
  · rw [found]
    exact List.forall_mem_cons.2 ⟨held, h.matching⟩
  · refine List.forall_mem_cons.2 ⟨?_, h.stored⟩
    intro x given
    cases given
    exact Table.find?_of_mem row
  · intro key chosen fresh more present
    rw [found] at more present ⊢
    rw [List.length_cons, List.take_succ_cons] at present
    obtain ⟨now, meanwhile⟩ := List.forall_mem_cons.1 present
    obtain ⟨x, here⟩ := Option.isSome_iff_exists.1 now
    obtain ⟨rowx, rfl⟩ := Table.mem_of_find? here
    rw [List.map_cons, List.mem_cons]
    obtain rfl | less := least x (Store.mem_ahead_iff.2 ⟨rowx, fresh⟩) chosen
    · exact .inl rfl
    · exact .inr (h.complete _ chosen (not_not.2 less) (Nat.lt_of_succ_lt_succ more) meanwhile)

theorem call {s : Store} (h : Scanned query (s.findNext query false).2.scan moments) :
    Scanned query s.scan (⟨s.catalogs, (s.findNext query false).1⟩ :: moments) := by
  obtain ⟨made, nothing⟩ | ⟨e, made, there, held, least⟩ := Store.findNext_cases query s
  · rw [made] at h ⊢
    exact h.cons_none nothing
  · rw [made] at h ⊢
    exact h.cons_some there held least

end Scanned

namespace Repository

theorem scanned_scanOn (query : String) (gaps : List (List Meanwhile)) (s : Repository × Host) :
    Scanned query s.1.tables.scan (scanOn query gaps s) := by
  induction gaps generalizing s with
  | nil => exact .nil
  | cons gap gaps ih =>
    rw [scanOn, ← Meanwhile.scan_foldl gap s]
    generalize gap.foldl Meanwhile.after s = t
    obtain ⟨given, next⟩ := Repository.findNext_tables query false t.1
    have later := ih (recordStore.findNext query false t).2
    have tables : (recordStore.findNext query false t).2.1.tables = (t.1.tables.findNext query false).2 := next
    have answer : (recordStore.findNext query false t).1 = (t.1.tables.findNext query false).1 := given
    rw [tables] at later
    rw [answer]
    exact later.call

theorem scanned_scanAmid (query : String) (gaps : List (List Meanwhile)) (s : Repository × Host) :
    Scanned query .start (scanAmid query gaps s) := by
  obtain ⟨given, next⟩ := Repository.findNext_tables query true s.1
  have later := scanned_scanOn query gaps (recordStore.findNext query true s).2
  have tables : (recordStore.findNext query true s).2.1.tables = (s.1.tables.findNext query true).2 := next
  have answer : (recordStore.findNext query true s).1 = (s.1.tables.findNext query true).1 := given
  rw [scanAmid, answer]
  rw [tables] at later
  exact later.call (s := { s.1.tables with scan := .start })

theorem pending_of_nil {query : String} {first : Bool} {r : Repository} (h : r.pending query first = []) :
    (r.findNext query first).2.pending query false = [] := by
  obtain ⟨-, tables⟩ := findNext_tables query first r
  rw [findNext_restarted, Store.findNext_of_nil h] at tables
  rw [pending, tables]
  rfl

theorem length_call_le (query : String) (first : Bool) {r : Repository} (catalogs : Table CatalogEntry)
    {later : List Moment}
    (h : (later.filterMap (·.answer)).length ≤ ((r.findNext query first).2.pending query false).length) :
    ((⟨catalogs, (r.findNext query first).1⟩ :: later).filterMap (·.answer)).length
      ≤ (r.pending query first).length := by
  cases found : r.pending query first with
  | nil =>
    rw [pending_of_nil found] at h
    simp only [List.filterMap_cons, findNext_of_nil found]
    exact h
  | cons e rest =>
    obtain ⟨given, left⟩ := findNext_of_cons found
    rw [left] at h
    simp only [List.filterMap_cons, given]
    exact Nat.succ_le_succ h

/-- Where nothing is put in, no more entries are found than there were matches ahead. -/
theorem length_found_le {query : String} {gaps : List (List Meanwhile)} (none : ∀ gap ∈ gaps, ∀ m ∈ gap, ¬ m.Puts)
    (s : Repository × Host) :
    ((scanOn query gaps s).filterMap (·.answer)).length ≤ (s.1.pending query false).length := by
  induction gaps generalizing s with
  | nil => exact Nat.zero_le _
  | cons gap gaps ih =>
    obtain ⟨here, others⟩ := List.forall_mem_cons.1 none
    have fewer : ((gap.foldl Meanwhile.after s).1.pending query false).length ≤ (s.1.pending query false).length :=
      (Store.pending_sublist query (Meanwhile.scan_foldl gap s) (Meanwhile.sublist_foldl here s)).length_le
    exact (length_call_le query false _ (ih others _)).trans fewer

theorem length_scanOn (query : String) (gaps : List (List Meanwhile)) (s : Repository × Host) :
    (scanOn query gaps s).length = gaps.length := by
  induction gaps generalizing s with
  | nil => rfl
  | cons gap gaps ih => exact congrArg Nat.succ (ih _)

end Repository

end DiscCatalog
