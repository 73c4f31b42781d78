import DiscCatalog.Proofs.Store.Meanwhile
import DiscCatalog.Proofs.Text.Utf8

namespace DiscCatalog

namespace Table

variable {ρ κ : Type} [LT κ] [Keyed ρ κ]

theorem nodup_rows [KeyOrder κ] (t : Table ρ) : t.rows.Nodup := by
  refine List.nodup_iff_pairwise_ne.2 (t.ordered.imp fun {a b} less => ?_)
  rintro rfl
  exact KeyOrder.irrefl (key a) less

theorem find?_eq_some_iff [KeyOrder κ] [DecidableEq κ] {k : κ} {r : ρ} {t : Table ρ} :
    t.find? k = some r ↔ r ∈ t.rows ∧ key r = k := by
  refine ⟨mem_of_find?, ?_⟩
  rintro ⟨there, rfl⟩
  exact find?_of_mem there

variable [DecidableEq κ]

theorem find?_place [DecidableLT κ] [KeyOrder κ] (r : ρ) (k : κ) (rows : List ρ) :
    (place r rows).find? (key · = k) = if key r = k then some r else rows.find? (key · = k) := by
  induction rows with
  | nil =>
    rw [place, List.find?_singleton, List.find?_nil]
    simp
  | cons s rest ih =>
    unfold place
    split
    · rw [List.find?_cons]
      by_cases same : key r = k <;> simp [same]
    · next notBefore =>
      split
      · next after =>
        rw [List.find?_cons, List.find?_cons, ih]
        by_cases same : key s = k
        · have other : key r ≠ k := fun h => KeyOrder.irrefl k (by rw [same, h] at after; exact after)
          simp [same, other]
        · simp [same]
      · next notAfter =>
        have same : key r = key s :=
          (KeyOrder.connected (key r) (key s)).resolve_left notBefore |>.resolve_right notAfter
        rw [List.find?_cons, List.find?_cons, ← same]
        by_cases named : key r = k <;> simp [named]

theorem find?_insert [DecidableLT κ] [KeyOrder κ] (r : ρ) (k : κ) (t : Table ρ) :
    (t.insert r).find? k = if key r = k then some r else t.find? k :=
  find?_place r k t.rows

theorem find?_erase (j k : κ) (t : Table ρ) : (t.erase j).find? k = if j = k then none else t.find? k := by
  rw [find?, erase, List.find?_filter]
  split
  · next same =>
    subst same
    simp
  · next other =>
    refine congrArg (fun p => t.rows.find? p) (funext fun x => ?_)
    by_cases named : key x = k
    · simp [named, Ne.symm other]
    · simp [named]

end Table

theorem checkKey_eq_ok_iff_size {catalog : String} :
    checkKey catalog = .ok () ↔ 1 ≤ catalog.utf8ByteSize ∧ catalog.utf8ByteSize ≤ 30 := by
  rw [checkKey_eq_ok_iff, Ne, ← String.utf8ByteSize_eq_zero_iff, Nat.one_le_iff_ne_zero]
  rfl

inductive RecordName where
  | catalog (key : String)
  | track (key : TrackKey)
deriving DecidableEq

inductive Record where
  | catalog (entry : CatalogEntry)
  | track (entry : TrackEntry)
deriving DecidableEq

def Record.name : Record → RecordName
  | catalog e => .catalog (key e)
  | track e => .track (key e)

namespace Change

def put? : Change → Option Record
  | putCatalog e => some (.catalog e)
  | putTrack e => some (.track e)
  | deleteCatalog _ | deleteTrack _ _ | reset => none

def Concerns (n : RecordName) : Change → Prop
  | putCatalog e => .catalog e.catalog = n
  | putTrack e => .track ⟨e.catalog, e.number⟩ = n
  | deleteCatalog key => .catalog key = n
  | deleteTrack key number => .track ⟨key, number⟩ = n
  | reset => True

theorem concerns_of_put? {c : Change} {r : Record} (put : c.put? = some r) : c.Concerns r.name := by
  cases c <;> cases put <;> rfl

end Change

def StoreCall.Concerns (n : RecordName) : StoreCall → Prop
  | change c => c.Concerns n
  | catalog _ | track _ _ | find _ _ | findAll _ => False

namespace RecordStore

/-- Calls with their replies, in the order in which they were made. -/
def log {σ : Type} (store : RecordStore σ) : List StoreCall → σ → List (StoreCall × StoreReply)
  | [], _ => []
  | call :: calls, s => (call, (store.perform call s).1) :: log store calls (store.perform call s).2

end RecordStore

namespace Store

def Decides (n : RecordName) (entry : StoreCall × StoreReply) : Prop :=
  entry.2 = .done (.ok ()) ∧ entry.1.Concerns n

def Stands (log : List (StoreCall × StoreReply)) (n : RecordName) (r : Record) : Prop :=
  ∃ before c after, log = before ++ (.change c, .done (.ok ())) :: after ∧ c.put? = some r ∧ r.name = n ∧
    ∀ entry ∈ after, ¬ Decides n entry

theorem stands_nil (n : RecordName) (r : Record) : ¬ Stands [] n r := by
  rintro ⟨before, c, after, made, -⟩
  simp at made

theorem stands_snoc {log : List (StoreCall × StoreReply)} {entry : StoreCall × StoreReply} {n : RecordName}
    {r : Record} : Stands (log ++ [entry]) n r ↔
      (∃ c, entry = (.change c, .done (.ok ())) ∧ c.put? = some r ∧ r.name = n) ∨
        Stands log n r ∧ ¬ Decides n entry := by
  constructor
  · rintro ⟨before, c, after, made, put, named, none⟩
    obtain rfl | ⟨after, last, rfl⟩ := List.eq_nil_or_concat after
    · obtain ⟨-, same⟩ := List.append_inj' made rfl
      exact .inl ⟨c, List.singleton_inj.1 same, put, named⟩
    · rw [List.concat_eq_append] at made none
      rw [← List.cons_append, ← List.append_assoc] at made
      obtain ⟨rfl, same⟩ := List.append_inj' made rfl
      obtain ⟨earlier, idle⟩ := List.forall_mem_append.1 none
      rw [List.singleton_inj.1 same]
      exact .inr ⟨⟨before, c, after, rfl, put, named, earlier⟩, idle last (List.mem_singleton_self last)⟩
  · rintro (⟨c, rfl, put, named⟩ | ⟨⟨before, c, after, rfl, put, named, none⟩, idle⟩)
    · exact ⟨log, c, [], rfl, put, named, by simp⟩
    · refine ⟨before, c, after ++ [entry], by simp, put, named, List.forall_mem_append.2 ⟨none, ?_⟩⟩
      exact List.forall_mem_singleton.2 idle

def row? : RecordName → Store → Option Record
  | .catalog k, s => (s.catalog? k).map .catalog
  | .track k, s => (s.track? k.catalog k.number).map .track

theorem row?_catalog {k : String} {e : CatalogEntry} {s : Store} :
    s.row? (.catalog k) = some (.catalog e) ↔ s.catalog? k = some e := by
  simp [row?]

theorem row?_track {k : TrackKey} {e : TrackEntry} {s : Store} :
    s.row? (.track k) = some (.track e) ↔ s.track? k.catalog k.number = some e := by
  simp [row?]

/-- A change that goes through decides what is found under the names that it concerns, and nothing else. -/
theorem row?_apply {c : Change} {s t : Store} (made : s.apply c = .ok t) (n : RecordName) :
    (c.Concerns n → t.row? n = c.put?) ∧ (¬ c.Concerns n → t.row? n = s.row? n) := by
  obtain ⟨e, rfl, -, rfl⟩ | ⟨e, rfl, -, rfl⟩ | ⟨k, rfl, -, rfl⟩ | ⟨k, number, rfl, -, rfl⟩ | ⟨rfl, rfl⟩ :=
    apply_eq_ok made
  · cases n with
    | catalog j =>
      simp only [row?, catalog?, Table.find?_insert, Change.Concerns, Change.put?, RecordName.catalog.injEq, key]
      by_cases same : e.catalog = j <;> simp [same]
    | track j => simp [Change.Concerns, row?, track?]
  · cases n with
    | catalog j => simp [Change.Concerns, row?, catalog?]
    | track j =>
      simp only [row?, track?, Table.find?_insert, Change.Concerns, Change.put?, RecordName.track.injEq, key]
      by_cases same : (⟨e.catalog, e.number⟩ : TrackKey) = j <;> simp [same]
  · cases n with
    | catalog j =>
      simp only [row?, catalog?, Table.find?_erase, Change.Concerns, Change.put?, RecordName.catalog.injEq]
      by_cases same : k = j <;> simp [same]
    | track j => simp [Change.Concerns, row?, track?]
  · cases n with
    | catalog j => simp [Change.Concerns, row?, catalog?]
    | track j =>
      simp only [row?, track?, Table.find?_erase, Change.Concerns, Change.put?, RecordName.track.injEq]
      by_cases same : (⟨k, number⟩ : TrackKey) = j <;> simp [same]
  · refine ⟨fun _ => ?_, fun h => absurd trivial h⟩
    cases n <;> rfl

/-- Everything that a call can do to the tables: it is a change that goes through, or it leaves them alone. -/
theorem perform_cases (call : StoreCall) (s : Store) :
    (∃ c t, call = .change c ∧ s.apply c = .ok t ∧ RecordStore.memory.perform call s = (.done (.ok ()), t)) ∨
      (∀ n, ¬ Decides n (call, (RecordStore.memory.perform call s).1)) ∧
        ∃ scan, (RecordStore.memory.perform call s).2 = { s with scan } := by
  cases call with
  | change c =>
    cases made : s.apply c with
    | ok t =>
      refine .inl ⟨c, t, rfl, made, ?_⟩
      rw [RecordStore.perform, RecordStore.memory_change_of_ok made]
    | error f =>
      rw [RecordStore.perform, RecordStore.memory_change_of_error made]
      exact .inr ⟨fun n decides => (nomatch decides.1), s.scan, rfl⟩
  | catalog | track => exact .inr ⟨fun n => And.right, s.scan, rfl⟩
  | find query first => exact .inr ⟨fun n => And.right, findNext_eq query first s⟩
  | findAll query => exact .inr ⟨fun n => And.right, scan_eq query (s.catalogs.size + 1) true s⟩

theorem row?_of_decides {call : StoreCall} {n : RecordName} {s : Store}
    (decides : Decides n (call, (RecordStore.memory.perform call s).1)) :
    ∃ c, (call, (RecordStore.memory.perform call s).1) = (.change c, .done (.ok ())) ∧
      (RecordStore.memory.perform call s).2.row? n = c.put? := by
  obtain ⟨c, t, rfl, made, done⟩ | ⟨idle, -⟩ := perform_cases call s
  · rw [done]
    exact ⟨c, rfl, (row?_apply made n).1 decides.2⟩
  · exact absurd decides (idle n)

theorem row?_of_not_decides {call : StoreCall} {n : RecordName} {s : Store}
    (idle : ¬ Decides n (call, (RecordStore.memory.perform call s).1)) :
    (RecordStore.memory.perform call s).2.row? n = s.row? n := by
  obtain ⟨c, t, rfl, made, done⟩ | ⟨-, scan, done⟩ := perform_cases call s
  · rw [done] at idle ⊢
    exact (row?_apply made n).2 fun concerns => idle ⟨rfl, concerns⟩
  · rw [done]
    cases n <;> rfl

theorem tables_perform (call : StoreCall) (s : Store) :
    ((∀ k, ¬ call.Concerns (.catalog k)) → (RecordStore.memory.perform call s).2.catalogs = s.catalogs) ∧
      ((∀ k, ¬ call.Concerns (.track k)) → (RecordStore.memory.perform call s).2.tracks = s.tracks) := by
  obtain ⟨c, t, rfl, made, done⟩ | ⟨-, scan, done⟩ := perform_cases call s
  · rw [done]
    obtain ⟨e, rfl, -, rfl⟩ | ⟨e, rfl, -, rfl⟩ | ⟨k, rfl, -, rfl⟩ | ⟨k, number, rfl, -, rfl⟩ | ⟨rfl, -⟩ :=
      apply_eq_ok made
    · exact ⟨fun other => absurd rfl (other e.catalog), fun _ => rfl⟩
    · exact ⟨fun _ => rfl, fun other => absurd rfl (other ⟨e.catalog, e.number⟩)⟩
    · exact ⟨fun other => absurd rfl (other k), fun _ => rfl⟩
    · exact ⟨fun _ => rfl, fun other => absurd rfl (other ⟨k, number⟩)⟩
    · exact ⟨fun other => absurd trivial (other ""), fun other => absurd trivial (other ⟨"", 0⟩)⟩
  · rw [done]
    exact ⟨fun _ => rfl, fun _ => rfl⟩

def Reflects (log : List (StoreCall × StoreReply)) (s : Store) : Prop :=
  ∀ n r, s.row? n = some r ↔ Stands log n r

theorem reflects_empty : Reflects [] {} := fun n r => by
  refine ⟨fun found => ?_, fun stands => absurd stands (stands_nil n r)⟩
  cases n <;> cases found

theorem name_of_row? {n : RecordName} {r : Record} {s : Store} (found : s.row? n = some r) : r.name = n := by
  cases n with
  | catalog k =>
    obtain ⟨e, there, rfl⟩ := Option.map_eq_some_iff.1 found
    exact congrArg RecordName.catalog (Table.mem_of_find? there).2
  | track k =>
    obtain ⟨e, there, rfl⟩ := Option.map_eq_some_iff.1 found
    exact congrArg RecordName.track (Table.mem_of_find? there).2

theorem Reflects.perform {log : List (StoreCall × StoreReply)} {s : Store} (h : Reflects log s) (call : StoreCall) :
    Reflects (log ++ [(call, (RecordStore.memory.perform call s).1)]) (RecordStore.memory.perform call s).2 := by
  intro n r
  rw [stands_snoc]
  -- Under a name that is decided now, what was there before plays no part.
  by_cases decides : Decides n (call, (RecordStore.memory.perform call s).1)
  · obtain ⟨c, made, found⟩ := row?_of_decides decides
    constructor
    · exact fun there => .inl ⟨c, made, found.symm.trans there, name_of_row? there⟩
    · rintro (⟨d, same, put, -⟩ | ⟨-, idle⟩)
      · cases made.symm.trans same
        exact found.trans put
      · exact absurd decides idle
  · rw [row?_of_not_decides decides, h n r]
    constructor
    · exact fun stands => .inr ⟨stands, decides⟩
    · rintro (⟨d, made, put, rfl⟩ | ⟨stands, -⟩)
      · exact absurd (made ▸ ⟨rfl, Change.concerns_of_put? put⟩) decides
      · exact stands

theorem Reflects.performAll {log : List (StoreCall × StoreReply)} {s : Store} (h : Reflects log s)
    (calls : List StoreCall) :
    Reflects (log ++ RecordStore.memory.log calls s) (RecordStore.memory.performAll calls s) := by
  induction calls generalizing log s with
  | nil => rwa [RecordStore.log, List.append_nil]
  | cons call calls ih =>
    rw [RecordStore.log, List.append_cons]
    exact ih (h.perform call)

theorem change_putCatalog (e : CatalogEntry) (s : Store) :
    (RecordStore.memory.change (.putCatalog e) s).1 = checkKey e.catalog := by
  simp only [RecordStore.memory, apply_putCatalog]
  cases checkKey e.catalog <;> rfl

theorem change_putTrack (e : TrackEntry) (s : Store) :
    (RecordStore.memory.change (.putTrack e) s).1 = checkKey e.catalog := by
  simp only [RecordStore.memory, apply_putTrack]
  cases checkKey e.catalog <;> rfl

theorem change_deleteCatalog (k : String) (s : Store) :
    (RecordStore.memory.change (.deleteCatalog k) s).1 = .ok () ↔ ∃ e, s.catalog? k = some e := by
  rw [← Option.isSome_iff_exists]
  simp only [RecordStore.memory, apply]
  cases (s.catalog? k).isSome <;> simp

theorem change_deleteTrack (k : String) (number : Int32) (s : Store) :
    (RecordStore.memory.change (.deleteTrack k number) s).1 = .ok () ↔ ∃ e, s.track? k number = some e := by
  rw [← Option.isSome_iff_exists]
  simp only [RecordStore.memory, apply]
  cases (s.track? k number).isSome <;> simp

theorem eq_of_change_eq_error {c : Change} {f : StoreFault} {s : Store}
    (failed : (RecordStore.memory.change c s).1 = .error f) : (RecordStore.memory.change c s).2 = s := by
  cases made : s.apply c with
  | ok t =>
    rw [RecordStore.memory_change_of_ok made] at failed
    cases failed
  | error g => rw [RecordStore.memory_change_of_error made]

/-- What the history of a store says about it: what is found, which calls go through, and how the rows lie. -/
structure Recorded (log : List (StoreCall × StoreReply)) (s : Store) : Prop where
  catalog : ∀ k e, s.catalog? k = some e ↔ Stands log (.catalog k) (.catalog e)
  track : ∀ k number e, s.track? k number = some e ↔ Stands log (.track ⟨k, number⟩) (.track e)
  putCatalog : ∀ e, (RecordStore.memory.change (.putCatalog e) s).1 = .ok () ↔
    1 ≤ e.catalog.utf8ByteSize ∧ e.catalog.utf8ByteSize ≤ 30
  putTrack : ∀ e, (RecordStore.memory.change (.putTrack e) s).1 = .ok () ↔
    1 ≤ e.catalog.utf8ByteSize ∧ e.catalog.utf8ByteSize ≤ 30
  deleteCatalog : ∀ k, (RecordStore.memory.change (.deleteCatalog k) s).1 = .ok () ↔ ∃ e, s.catalog? k = some e
  deleteTrack : ∀ k number, (RecordStore.memory.change (.deleteTrack k number) s).1 = .ok () ↔
    ∃ e, s.track? k number = some e
  reset : (RecordStore.memory.change .reset s).1 = .ok ()
  /-- A failure leaves the tables and the place of the scan as they were. -/
  failed : ∀ c f, (RecordStore.memory.change c s).1 = .error f → (RecordStore.memory.change c s).2 = s
  otherCatalog : ∀ call k, ¬ call.Concerns (.catalog k) →
    (RecordStore.memory.perform call s).2.catalog? k = s.catalog? k
  otherTrack : ∀ call k number, ¬ call.Concerns (.track ⟨k, number⟩) →
    (RecordStore.memory.perform call s).2.track? k number = s.track? k number
  /-- A call that concerns no catalog entry leaves that table as it is. -/
  catalogsKept : ∀ call, (∀ k, ¬ call.Concerns (.catalog k)) →
    (RecordStore.memory.perform call s).2.catalogs = s.catalogs
  tracksKept : ∀ call, (∀ k, ¬ call.Concerns (.track k)) → (RecordStore.memory.perform call s).2.tracks = s.tracks
  /-- The rows are those that are found, each under its own key. -/
  catalogRows : ∀ e k, e ∈ s.catalogs.rows ∧ e.catalog = k ↔ s.catalog? k = some e
  trackRows : ∀ e k number, e ∈ s.tracks.rows ∧ e.catalog = k ∧ e.number = number ↔ s.track? k number = some e
  catalogKeys : ∀ e ∈ s.catalogs.rows, 1 ≤ e.catalog.utf8ByteSize ∧ e.catalog.utf8ByteSize ≤ 30
  trackKeys : ∀ e ∈ s.tracks.rows, 1 ≤ e.catalog.utf8ByteSize ∧ e.catalog.utf8ByteSize ≤ 30
  catalogOrder : s.catalogs.rows.Pairwise fun a b => Text.bytes a.catalog < Text.bytes b.catalog
  trackOrder : s.tracks.rows.Pairwise fun a b =>
    Text.bytes a.catalog < Text.bytes b.catalog ∨ a.catalog = b.catalog ∧ a.number.toInt < b.number.toInt
  once : s.catalogs.rows.Nodup ∧ s.tracks.rows.Nodup

theorem Reflects.recorded {log : List (StoreCall × StoreReply)} {s : Store} (h : Reflects log s) (keys : s.KeysHold) :
    s.Recorded log where
  catalog k e := row?_catalog.symm.trans (h _ _)
  track k number e := (row?_track (k := ⟨k, number⟩)).symm.trans (h _ _)
  putCatalog e := by rw [change_putCatalog, checkKey_eq_ok_iff_size]
  putTrack e := by rw [change_putTrack, checkKey_eq_ok_iff_size]
  deleteCatalog k := change_deleteCatalog k s
  deleteTrack k number := change_deleteTrack k number s
  reset := rfl
  failed c f := eq_of_change_eq_error
  otherCatalog call k other := by
    have same := row?_of_not_decides fun decides : Decides _ (call, (RecordStore.memory.perform call s).1) =>
      other decides.2
    exact Option.map_injective (fun _ _ => Record.catalog.inj) same
  otherTrack call k number other := by
    have same := row?_of_not_decides fun decides : Decides _ (call, (RecordStore.memory.perform call s).1) =>
      other decides.2
    exact Option.map_injective (fun _ _ => Record.track.inj) same
  catalogsKept call := (tables_perform call s).1
  tracksKept call := (tables_perform call s).2
  catalogRows e k := Table.find?_eq_some_iff.symm
  trackRows e k number := by
    rw [track?, Table.find?_eq_some_iff]
    exact and_congr_right fun _ => by simp [key]
  catalogKeys e there := checkKey_eq_ok_iff_size.1 (keys.catalogs e there)
  trackKeys e there := checkKey_eq_ok_iff_size.1 (keys.tracks e there)
  catalogOrder := s.catalogs.ordered.imp fun {a b} less => Text.bytes_lt_bytes less
  trackOrder := s.tracks.ordered.imp fun {a b} less =>
    less.imp Text.bytes_lt_bytes (And.imp_right Int32.lt_iff_toInt_lt.1)
  once := ⟨s.catalogs.nodup_rows, s.tracks.nodup_rows⟩

/-- A store that began empty is what its history says, whatever was called. -/
theorem recorded_performAll (calls : List StoreCall) :
    (RecordStore.memory.performAll calls {}).Recorded (RecordStore.memory.log calls {}) :=
  (reflects_empty.performAll calls).recorded (keysHold_performAll calls keysHold_empty)

end Store

end DiscCatalog
