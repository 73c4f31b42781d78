import DiscCatalog.Store.Interface

namespace DiscCatalog

inductive StoreCall where
  | change (c : Change)
  | catalog (key : String)
  | track (key : String) (number : Int32)
  | find (query : String) (first : Bool)
  | findAll (query : String)
deriving DecidableEq

inductive StoreReply where
  | done (outcome : Except StoreFault Unit)
  | catalog (entry : Option CatalogEntry)
  | track (entry : Option TrackEntry)
  | keys (found : List String)

namespace RecordStore

variable {σ : Type}

def scan (store : RecordStore σ) (query : String) : (room : Nat) → (first : Bool) → σ → List String × σ
  | 0, _, s => ([], s)
  | room + 1, first, s =>
    match store.findNext query first s with
    | (none, s) => ([], s)
    | (some entry, s) =>
      let (keys, s) := scan store query room false s
      (entry.catalog :: keys, s)

def perform (store : RecordStore σ) (call : StoreCall) (s : σ) : StoreReply × σ :=
  match call with
  | .change c =>
    let (outcome, s) := store.change c s
    (.done outcome, s)
  | .catalog key => (.catalog (store.catalog? key s), s)
  | .track key number => (.track (store.track? key number s), s)
  | .find query first =>
    let (entry, s) := store.findNext query first s
    (.catalog entry, s)
  | .findAll query =>
    let (keys, s) := store.scan query (store.size s + 1) true s
    (.keys keys, s)

def performAll (store : RecordStore σ) (calls : List StoreCall) (s : σ) : σ :=
  calls.foldl (fun s call => (store.perform call s).2) s

end RecordStore

end DiscCatalog
