import DiscCatalog.Fault
import DiscCatalog.Record
import DiscCatalog.Frame.LittleEndian

namespace DiscCatalog

namespace TableFile

abbrev Reader (α : Type) := List UInt8 → Except TableFault (α × List UInt8)

def writeCount (n : Nat) : List UInt8 := LittleEndian.encode 8 n

def readBlock (width : Nat) : Reader (List UInt8) := fun bs =>
  if width ≤ bs.length then .ok (bs.take width, bs.drop width) else .error .truncated

def readCount : Reader Nat := fun bs => do
  let (block, rest) ← readBlock 8 bs
  return (LittleEndian.decode block, rest)

def writeText (s : String) : List UInt8 := writeCount s.utf8ByteSize ++ Text.bytes s

def readText : Reader String := fun bs => do
  let (size, rest) ← readCount bs
  let (block, rest) ← readBlock size rest
  match Text.decode block with
  | .ok s => return (s, rest)
  | .error fault => throw (.invalidText fault)

class RowForm (ρ : Type) where
  write : ρ → List UInt8
  read : Reader ρ

instance : RowForm CatalogEntry where
  write e := writeText e.catalog ++ writeText e.title ++ writeText e.kind ++ writeText e.artist
  read bs := do
    let (catalog, bs) ← readText bs
    let (title, bs) ← readText bs
    let (kind, bs) ← readText bs
    let (artist, bs) ← readText bs
    return ({ catalog, title, kind, artist }, bs)

instance : RowForm TrackEntry where
  write e := writeText e.catalog ++ LittleEndian.ofInt32 e.number ++ writeText e.text
  read bs := do
    let (catalog, bs) ← readText bs
    let (number, bs) ← readBlock 4 bs
    let (text, bs) ← readText bs
    return ({ catalog, number := LittleEndian.toInt32 number, text }, bs)

variable {ρ : Type} [RowForm ρ]

def encode (rows : List ρ) : List UInt8 := writeCount rows.length ++ rows.flatMap RowForm.write

def readRows : (count : Nat) → Reader (List ρ)
  | 0, bs => .ok ([], bs)
  | count + 1, bs => do
    let (row, bs) ← RowForm.read bs
    let (rows, bs) ← readRows count bs
    return (row :: rows, bs)

/-- The rows of a table file; what follows them is left alone. -/
def decode (bs : List UInt8) : Except TableFault (List ρ) := do
  let (count, rest) ← readCount bs
  let (rows, _) ← readRows count rest
  return rows

end TableFile

end DiscCatalog
