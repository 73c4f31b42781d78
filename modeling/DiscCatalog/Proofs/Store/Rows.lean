import DiscCatalog.Store.Call
import DiscCatalog.Proofs.Frame.RoundTrip

namespace DiscCatalog

namespace Table

variable {ρ κ : Type} [LT κ] [Keyed ρ κ]

theorem mem_insert [DecidableLT κ] [KeyOrder κ] {r x : ρ} {t : Table ρ} (h : x ∈ (t.insert r).rows) :
    x = r ∨ x ∈ t.rows := mem_of_mem_place h

theorem mem_erase [DecidableEq κ] {k : κ} {x : ρ} {t : Table ρ} (h : x ∈ (t.erase k).rows) : x ∈ t.rows :=
  (List.mem_filter.1 h).1

theorem mem_of_find? [DecidableEq κ] {k : κ} {r : ρ} {t : Table ρ} (h : t.find? k = some r) :
    r ∈ t.rows ∧ key r = k :=
  ⟨List.mem_of_find?_eq_some h, by simpa using List.find?_some h⟩

end Table

theorem checkKey_eq_ok_iff {catalog : String} :
    checkKey catalog = .ok () ↔ catalog ≠ "" ∧ catalog.utf8ByteSize ≤ Slot.catalog.capacity := by
  unfold checkKey
  split
  · next empty => simp_all
  · next some =>
    split
    · next long => simp [Nat.not_le.2 long]
    · next short => simp_all

/-- A change that puts in nothing but what a frame can carry. -/
def Change.Encodes : Change → Prop
  | .putCatalog e => e.Encodes
  | .putTrack e => e.Encodes
  | _ => True

namespace RecordStore

variable {c : Change} {s t : Store}

theorem memory_change_of_ok (made : s.apply c = .ok t) : memory.change c s = (.ok (), t) := by
  simp only [memory, made]

theorem memory_change_of_error {f : StoreFault} (failed : s.apply c = .error f) :
    memory.change c s = (.error f, s) := by
  simp only [memory, failed]

/-- What holds of a store and of what a change makes of it holds after the change, whether it fails or not. -/
theorem of_memory_change {P : Store → Prop} (same : P s) (made : ∀ t, s.apply c = .ok t → P t) :
    P (memory.change c s).2 := by
  cases applied : s.apply c with
  | ok t =>
    rw [memory_change_of_ok applied]
    exact made t applied
  | error f =>
    rw [memory_change_of_error applied]
    exact same

end RecordStore

namespace Store

theorem apply_putCatalog (e : CatalogEntry) (s : Store) :
    s.apply (.putCatalog e) = (checkKey e.catalog).map fun _ => { s with catalogs := s.catalogs.insert e } := by
  rw [apply]
  cases checkKey e.catalog <;> rfl

theorem apply_putTrack (e : TrackEntry) (s : Store) :
    s.apply (.putTrack e) = (checkKey e.catalog).map fun _ => { s with tracks := s.tracks.insert e } := by
  rw [apply]
  cases checkKey e.catalog <;> rfl

/-- Everything that a change can do when it goes through. -/
theorem apply_eq_ok {c : Change} {s t : Store} (h : s.apply c = .ok t) :
    (∃ e, c = .putCatalog e ∧ checkKey e.catalog = .ok () ∧ t = { s with catalogs := s.catalogs.insert e })
      ∨ (∃ e, c = .putTrack e ∧ checkKey e.catalog = .ok () ∧ t = { s with tracks := s.tracks.insert e })
      ∨ (∃ key, c = .deleteCatalog key ∧ (s.catalog? key).isSome
          ∧ t = { s with catalogs := s.catalogs.erase key })
      ∨ (∃ key number, c = .deleteTrack key number ∧ (s.track? key number).isSome
          ∧ t = { s with tracks := s.tracks.erase ⟨key, number⟩ })
      ∨ (c = .reset ∧ t = {}) := by
  cases c with
  | putCatalog e =>
    refine .inl ⟨e, rfl, ?_⟩
    rw [apply_putCatalog] at h
    cases hk : checkKey e.catalog <;> rw [hk] at h <;> cases h
    exact ⟨rfl, rfl⟩
  | putTrack e =>
    refine .inr (.inl ⟨e, rfl, ?_⟩)
    rw [apply_putTrack] at h
    cases hk : checkKey e.catalog <;> rw [hk] at h <;> cases h
    exact ⟨rfl, rfl⟩
  | deleteCatalog key =>
    refine .inr (.inr (.inl ⟨key, rfl, ?_⟩))
    rw [apply] at h
    split at h
    · next there => cases h; exact ⟨there, rfl⟩
    · cases h
  | deleteTrack key number =>
    refine .inr (.inr (.inr (.inl ⟨key, number, rfl, ?_⟩)))
    rw [apply] at h
    split at h
    · next there => cases h; exact ⟨there, rfl⟩
    · cases h
  | reset => cases h; exact .inr (.inr (.inr (.inr ⟨rfl, rfl⟩)))

theorem apply_eq_error {c : Change} {s : Store} {f : StoreFault} (h : s.apply c = .error f) :
    (∃ e, c = .putCatalog e ∧ checkKey e.catalog = .error f)
      ∨ (∃ e, c = .putTrack e ∧ checkKey e.catalog = .error f)
      ∨ (∃ key, c = .deleteCatalog key ∧ f = .notFound key)
      ∨ (∃ key number, c = .deleteTrack key number ∧ f = .notFound s!"{key} track {number}") := by
  cases c with
  | putCatalog e =>
    refine .inl ⟨e, rfl, ?_⟩
    rw [apply_putCatalog] at h
    cases hk : checkKey e.catalog <;> rw [hk] at h <;> cases h
    rfl
  | putTrack e =>
    refine .inr (.inl ⟨e, rfl, ?_⟩)
    rw [apply_putTrack] at h
    cases hk : checkKey e.catalog <;> rw [hk] at h <;> cases h
    rfl
  | deleteCatalog key =>
    refine .inr (.inr (.inl ⟨key, rfl, ?_⟩))
    rw [apply] at h
    split at h
    · cases h
    · cases h; rfl
  | deleteTrack key number =>
    refine .inr (.inr (.inr ⟨key, number, rfl, ?_⟩))
    rw [apply] at h
    split at h
    · cases h
    · cases h; rfl
  | reset => cases h

theorem memory_change_scan (c : Change) (s : Store) (scan : Scan) :
    ∃ scan', RecordStore.memory.change c { s with scan } =
      ((RecordStore.memory.change c s).1, { (RecordStore.memory.change c s).2 with scan := scan' }) := by
  simp only [RecordStore.memory]
  cases c with
  | putCatalog e =>
    rw [apply_putCatalog, apply_putCatalog]
    cases checkKey e.catalog <;> exact ⟨scan, rfl⟩
  | putTrack e =>
    rw [apply_putTrack, apply_putTrack]
    cases checkKey e.catalog <;> exact ⟨scan, rfl⟩
  | deleteCatalog key =>
    have same : catalog? key { s with scan } = s.catalog? key := rfl
    rw [apply, apply, same]
    cases (s.catalog? key).isSome <;> exact ⟨scan, rfl⟩
  | deleteTrack key number =>
    have same : track? key number { s with scan } = s.track? key number := rfl
    rw [apply, apply, same]
    cases (s.track? key number).isSome <;> exact ⟨scan, rfl⟩
  | reset => exact ⟨.start, rfl⟩

/-- The rows all have keys that may be stored. -/
structure KeysHold (s : Store) : Prop where
  catalogs : ∀ e ∈ s.catalogs.rows, checkKey e.catalog = .ok ()
  tracks : ∀ e ∈ s.tracks.rows, checkKey e.catalog = .ok ()

/-- The rows are all such as a frame can carry. -/
structure Encodes (s : Store) : Prop where
  catalogs : ∀ e ∈ s.catalogs.rows, e.Encodes
  tracks : ∀ e ∈ s.tracks.rows, e.Encodes

theorem keysHold_empty : KeysHold {} := ⟨by simp [Table.empty], by simp [Table.empty]⟩

theorem encodes_empty : Encodes {} := ⟨by simp [Table.empty], by simp [Table.empty]⟩

theorem forall_rows_of_apply {P : CatalogEntry → Prop} {Q : TrackEntry → Prop} {c : Change} {s t : Store}
    (rows : (∀ e ∈ s.catalogs.rows, P e) ∧ ∀ e ∈ s.tracks.rows, Q e)
    (catalog : ∀ e, c = .putCatalog e → checkKey e.catalog = .ok () → P e)
    (track : ∀ e, c = .putTrack e → checkKey e.catalog = .ok () → Q e) (h : s.apply c = .ok t) :
    (∀ e ∈ t.catalogs.rows, P e) ∧ ∀ e ∈ t.tracks.rows, Q e := by
  obtain ⟨e, rfl, hk, rfl⟩ | ⟨e, rfl, hk, rfl⟩ | ⟨key, rfl, -, rfl⟩ | ⟨key, number, rfl, -, rfl⟩ | ⟨rfl, rfl⟩ :=
    apply_eq_ok h
  · refine ⟨fun x hx => ?_, rows.2⟩
    obtain rfl | hx := Table.mem_insert hx
    · exact catalog x rfl hk
    · exact rows.1 x hx
  · refine ⟨rows.1, fun x hx => ?_⟩
    obtain rfl | hx := Table.mem_insert hx
    · exact track x rfl hk
    · exact rows.2 x hx
  · exact ⟨fun x hx => rows.1 x (Table.mem_erase hx), rows.2⟩
  · exact ⟨rows.1, fun x hx => rows.2 x (Table.mem_erase hx)⟩
  · exact ⟨by simp [Table.empty], by simp [Table.empty]⟩

theorem KeysHold.apply {c : Change} {s t : Store} (hs : s.KeysHold) (h : s.apply c = .ok t) : t.KeysHold := by
  obtain ⟨catalogs, tracks⟩ := forall_rows_of_apply ⟨hs.catalogs, hs.tracks⟩ (fun e _ hk => hk) (fun e _ hk => hk) h
  exact ⟨catalogs, tracks⟩

theorem KeysHold.present?_catalog {s : Store} (hs : s.KeysHold) (key : String) :
    ((s.catalog? key).getD {}).present? = s.catalog? key := by
  cases found : s.catalog? key with
  | none => rfl
  | some e =>
    have named := (checkKey_eq_ok_iff.1 (hs.catalogs e (Table.mem_of_find? found).1)).1
    rw [Option.getD_some, CatalogEntry.present?, CatalogEntry.isEmpty, if_neg (by simpa using named)]

theorem KeysHold.present?_track {s : Store} (hs : s.KeysHold) (key : String) (number : Int32) :
    ((s.track? key number).getD {}).present? = s.track? key number := by
  cases found : s.track? key number with
  | none => rfl
  | some e =>
    have named := (checkKey_eq_ok_iff.1 (hs.tracks e (Table.mem_of_find? found).1)).1
    rw [Option.getD_some, TrackEntry.present?, TrackEntry.isEmpty, if_neg (by simpa using named)]

theorem Encodes.apply {c : Change} {s t : Store} (hs : s.Encodes) (hc : c.Encodes) (h : s.apply c = .ok t) :
    t.Encodes := by
  obtain ⟨catalogs, tracks⟩ := forall_rows_of_apply ⟨hs.catalogs, hs.tracks⟩ (fun e he _ => by subst he; exact hc)
    (fun e he _ => by subst he; exact hc) h
  exact ⟨catalogs, tracks⟩

theorem KeysHold.change {s : Store} (h : s.KeysHold) (c : Change) :
    (RecordStore.memory.change c s).2.KeysHold :=
  RecordStore.of_memory_change h fun _ made => h.apply made

theorem Encodes.change {s : Store} {c : Change} (h : s.Encodes) (hc : c.Encodes) :
    (RecordStore.memory.change c s).2.Encodes :=
  RecordStore.of_memory_change h fun _ made => h.apply hc made

end Store

end DiscCatalog
