import DiscCatalog.Store

namespace DiscCatalog

structure RecordStore (σ : Type) where
  catalog? : String → σ → Option CatalogEntry
  track? : String → Int32 → σ → Option TrackEntry
  /-- A failed change leaves the tables as they were. -/
  change : Change → σ → Except StoreFault Unit × σ
  findNext : String → Bool → σ → Option CatalogEntry × σ
  size : σ → Nat

/-- The part of a state that has a type of its own. -/
structure Part (σ τ : Type) where
  get : σ → τ
  set : τ → σ → σ

namespace Part

def lift {σ τ α : Type} (p : Part σ τ) (f : τ → α × τ) (s : σ) : α × σ :=
  let (a, t) := f (p.get s)
  (a, p.set t s)

end Part

namespace RecordStore

def within {σ τ : Type} (p : Part σ τ) (store : RecordStore τ) : RecordStore σ where
  catalog? key s := store.catalog? key (p.get s)
  track? key number s := store.track? key number (p.get s)
  change c := p.lift (store.change c)
  findNext query first := p.lift (store.findNext query first)
  size s := store.size (p.get s)

def memory : RecordStore Store where
  catalog? key s := s.catalog? key
  track? key number s := s.track? key number
  change c s := match s.apply c with
    | .ok s => (.ok (), s)
    | .error f => (.error f, s)
  findNext query first s := s.findNext query first
  size s := s.catalogs.size

end RecordStore

end DiscCatalog
