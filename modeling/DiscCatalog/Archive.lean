import DiscCatalog.Archive.TableFile
import DiscCatalog.Host.File
import DiscCatalog.Host.Tree
import DiscCatalog.Store.Interface

namespace DiscCatalog

structure Archive where
  directory : String
  owner : Nat
  tables : Store
  lock : Nat
deriving DecidableEq

namespace Archive

def catalogFile : String := "catalog.db"
def trackFile : String := "tracks.db"
def lockFile : String := "store.lock"

def storeFault (e : Errno) : StoreFault := .io (.os e)

/-- Writes a table file beside its place and then puts it there, so that its place holds the old table
or the new one and nothing between. -/
def writeTable (directory : String) (owner : Nat) (file : String) (bytes : List UInt8) (h : Host) :
    Except StoreFault Unit × Host :=
  let path := joinPath directory file
  let aside := s!"{path}.{owner}.tmp"
  match h.writeFile aside bytes with
  | (.error e, h) => (.error (storeFault e), h)
  | (.ok (), h) =>
    match h.rename aside path with
    | (.ok (), h) => (.ok (), h)
    | (.error e, h) => (.error (storeFault e), (h.unlink aside).2)

def readTable {ρ : Type} [TableFile.RowForm ρ] (directory file : String) (h : Host) :
    Except StoreFault (List ρ) :=
  match h.find true (joinPath directory file) with
  | .error e => if e = .noEntry then .ok [] else .error (storeFault e)
  | .ok (_, _, node) =>
    if ¬ Host.allows node .read then .error (storeFault .accessDenied)
    else match h.readFile (joinPath directory file) with
    | .error e => .error (.unreadable (.io (.os e)))
    | .ok bytes =>
      match TableFile.decode bytes with
      | .ok rows => .ok rows
      | .error fault => .error (.unreadable fault)

def writeCatalogs (directory : String) (owner : Nat) (s : Store) (h : Host) : Except StoreFault Unit × Host :=
  writeTable directory owner catalogFile (TableFile.encode s.catalogs.rows) h

def writeTracks (directory : String) (owner : Nat) (s : Store) (h : Host) : Except StoreFault Unit × Host :=
  writeTable directory owner trackFile (TableFile.encode s.tracks.rows) h

def writeBoth (directory : String) (owner : Nat) (s : Store) (h : Host) : Except StoreFault Unit × Host :=
  match writeCatalogs directory owner s h with
  | (.ok (), h) => writeTracks directory owner s h
  | failed => failed

def writeFor (c : Change) (directory : String) (owner : Nat) (s : Store) (h : Host) :
    Except StoreFault Unit × Host :=
  match c with
  | .putCatalog _ | .deleteCatalog _ => writeCatalogs directory owner s h
  | .putTrack _ | .deleteTrack _ _ => writeTracks directory owner s h
  | .reset => writeBoth directory owner s h

/-- The store in the table files of a directory. Both files are read before any row is looked at. -/
def load (directory : String) (h : Host) : Except StoreFault Store := do
  let catalogs : List CatalogEntry ← readTable directory catalogFile h
  let tracks : List TrackEntry ← readTable directory trackFile h
  let s ← catalogs.foldlM (fun (s : Store) e => s.apply (.putCatalog e)) {}
  tracks.foldlM (fun s e => s.apply (.putTrack e)) s

def openIn (directory : String) (owner : Nat) (new : Bool) (h : Host) : Except StoreFault Archive × Host :=
  if '\x00' ∈ directory.toList then
    (.error (.io (.custom "file name contained an unexpected NUL byte")), h)
  else match h.makeDirectories directory with
  | (.error e, h) => (.error (storeFault e), h)
  | (.ok (), h) =>
    let lockPath := joinPath directory lockFile
    match h.createFile lockPath false with
    | (.error e, h) => (.error (storeFault e), h)
    | (.ok lock, h) =>
      match h.tryLock lock with
      | (false, h) => (.error (.locked lockPath), h.close lock)
      | (true, h) =>
        let (tables, h) :=
          if new then
            match writeBoth directory owner {} h with
            | (.ok (), h) => (.ok {}, h)
            | (.error f, h) => (.error f, h)
          else (load directory h, h)
        match tables with
        | .ok tables => (.ok { directory, owner, tables, lock }, h)
        | .error f => (.error f, h.close lock)

def close (a : Archive) (h : Host) : Host := h.close a.lock

/-- Applies a change to the tables and writes those concerned. If they cannot be written the tables
in memory stay as they were. -/
def change (c : Change) : Archive × Host → Except StoreFault Unit × Archive × Host
  | (a, h) =>
    match a.tables.apply c with
    | .error f => (.error f, a, h)
    | .ok tables =>
      match writeFor c a.directory a.owner tables h with
      | (.ok (), h) => (.ok (), { a with tables }, h)
      | (.error f, h) => (.error f, a, h)

def recordStore : RecordStore (Archive × Host) where
  catalog? key s := s.1.tables.catalog? key
  track? key number s := s.1.tables.track? key number
  change := change
  findNext query first s :=
    let (found, tables) := s.1.tables.findNext query first
    (found, { s.1 with tables }, s.2)
  size s := s.1.tables.catalogs.size

end Archive

end DiscCatalog
