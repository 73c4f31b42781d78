import DiscCatalog.Archive
import DiscCatalog.Store.Call

namespace DiscCatalog

inductive Repository where
  | memory (tables : Store)
  | archive (opened : Archive)
deriving DecidableEq

namespace Repository

def tables : Repository → Store
  | memory tables => tables
  | archive opened => opened.tables

def change (c : Change) : Repository × Host → Except StoreFault Unit × Repository × Host
  | (.memory tables, h) =>
    match tables.apply c with
    | .ok tables => (.ok (), .memory tables, h)
    | .error f => (.error f, .memory tables, h)
  | (.archive opened, h) =>
    let (outcome, opened, h) := Archive.change c (opened, h)
    (outcome, .archive opened, h)

def findNext (query : String) (first : Bool) (r : Repository) : Option CatalogEntry × Repository :=
  let (found, tables) := r.tables.findNext query first
  match r with
  | .memory _ => (found, .memory tables)
  | .archive opened => (found, .archive { opened with tables })

def recordStore : RecordStore (Repository × Host) where
  catalog? key s := s.1.tables.catalog? key
  track? key number s := s.1.tables.track? key number
  change := change
  findNext query first s :=
    let (found, r) := s.1.findNext query first
    (found, r, s.2)
  size s := s.1.tables.catalogs.size

def close : Repository → Host → Host
  | .memory _, h => h
  | .archive opened, h => opened.close h

end Repository

end DiscCatalog
