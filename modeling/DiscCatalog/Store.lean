import DiscCatalog.Store.Table
import DiscCatalog.Record
import DiscCatalog.Fault
import DiscCatalog.Frame.Slot

namespace DiscCatalog

structure TrackKey where
  catalog : String
  number : Int32
deriving DecidableEq

instance : LT TrackKey where
  lt a b := a.catalog < b.catalog ∨ a.catalog = b.catalog ∧ a.number < b.number

instance : DecidableLT TrackKey := fun a b =>
  inferInstanceAs (Decidable (a.catalog < b.catalog ∨ a.catalog = b.catalog ∧ a.number < b.number))

instance : KeyOrder String where
  irrefl := String.lt_irrefl
  trans := String.lt_trans
  connected a b := by
    by_cases h : a < b
    · exact Or.inl h
    · by_cases h' : b < a
      · exact Or.inr (Or.inr h')
      · exact Or.inr (Or.inl (String.le_antisymm h' h))

instance : KeyOrder TrackKey where
  irrefl a h := h.elim (String.lt_irrefl _) fun h => Int32.lt_irrefl h.2
  trans {a b c} h k := by
    obtain h | ⟨h, hn⟩ := h <;> obtain k | ⟨k, kn⟩ := k
    · exact Or.inl (String.lt_trans h k)
    · exact Or.inl (k ▸ h)
    · exact Or.inl (h ▸ k)
    · exact Or.inr ⟨h.trans k, Int32.lt_trans hn kn⟩
  connected a b := by
    obtain ⟨a, m⟩ := a
    obtain ⟨b, n⟩ := b
    obtain h | rfl | h := KeyOrder.connected a b
    · exact Or.inl (Or.inl h)
    · obtain h | h | h := Int.lt_trichotomy m.toInt n.toInt
      · exact Or.inl (Or.inr ⟨rfl, Int32.lt_iff_toInt_lt.2 h⟩)
      · exact Or.inr (Or.inl (by rw [Int32.toInt_inj.1 h]))
      · exact Or.inr (Or.inr (Or.inr ⟨rfl, Int32.lt_iff_toInt_lt.2 h⟩))
    · exact Or.inr (Or.inr (Or.inl h))

instance : Keyed CatalogEntry String where
  key e := e.catalog

instance : Keyed TrackEntry TrackKey where
  key e := ⟨e.catalog, e.number⟩

inductive Scan where
  | start
  | after (key : String)
  | done
deriving DecidableEq, Inhabited

structure Store where
  catalogs : Table CatalogEntry := .empty
  tracks : Table TrackEntry := .empty
  scan : Scan := .start
deriving DecidableEq, Inhabited

inductive Change where
  | putCatalog (entry : CatalogEntry)
  | putTrack (entry : TrackEntry)
  | deleteCatalog (catalog : String)
  | deleteTrack (catalog : String) (number : Int32)
  | reset
deriving DecidableEq

def checkKey (catalog : String) : Except StoreFault Unit :=
  if catalog.isEmpty then .error .emptyKey
  else if Slot.catalog.capacity < catalog.utf8ByteSize then
    .error (.keyTooLong catalog.utf8ByteSize Slot.catalog.capacity)
  else .ok ()

namespace Store

def catalog? (key : String) (s : Store) : Option CatalogEntry := s.catalogs.find? key

def track? (key : String) (number : Int32) (s : Store) : Option TrackEntry :=
  s.tracks.find? ⟨key, number⟩

/-- The store after a change. What is deleted has to be there; a reset also restarts the scan. -/
def apply (change : Change) (s : Store) : Except StoreFault Store :=
  match change with
  | .putCatalog entry => do
    checkKey entry.catalog
    return { s with catalogs := s.catalogs.insert entry }
  | .putTrack entry => do
    checkKey entry.catalog
    return { s with tracks := s.tracks.insert entry }
  | .deleteCatalog key =>
    if (s.catalog? key).isSome then .ok { s with catalogs := s.catalogs.erase key }
    else .error (.notFound key)
  | .deleteTrack key number =>
    if (s.track? key number).isSome then .ok { s with tracks := s.tracks.erase ⟨key, number⟩ }
    else .error (.notFound s!"{key} track {number}")
  | .reset => .ok {}

def ahead (s : Store) : List CatalogEntry :=
  match s.scan with
  | .start => s.catalogs.rows
  | .after key => s.catalogs.after key
  | .done => []

/-- The next entry whose key contains `query`, in key order; `first` restarts the scan. A scan that
has run out stays so until it is restarted. -/
def findNext (query : String) (first : Bool) (s : Store) : Option CatalogEntry × Store :=
  let s := if first then { s with scan := .start } else s
  match s.ahead.find? (Text.contains ·.catalog query) with
  | some entry => (some entry, { s with scan := .after entry.catalog })
  | none => (none, { s with scan := .done })

def matching (query : String) (s : Store) : List CatalogEntry :=
  s.catalogs.rows.filter (Text.contains ·.catalog query)

end Store

end DiscCatalog
