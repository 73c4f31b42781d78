import DiscCatalog.Message
import DiscCatalog.Frame.Row

namespace DiscCatalog

namespace Frame

def magic : List UInt8 := [0x43, 0x44, 0x49, 0x50]

def version : Nat := 1

def headerSize : Nat := 12

def originOffset : Nat := 8

def size : Nat := headerSize + CatalogEntry.frameSize + TrackEntry.frameSize + Slot.diagnostic.width

def header (m : Message) : List UInt8 :=
  magic ++ LittleEndian.encode 2 version ++ LittleEndian.encode 1 m.operation.tag
    ++ LittleEndian.encode 1 m.status.tag ++ LittleEndian.ofUInt32 m.origin

def headerOrigin (frame : List UInt8) : UInt32 :=
  LittleEndian.toUInt32 ((frame.drop originOffset).take 4)

def stamp (frame : List UInt8) (origin : UInt32) : List UInt8 :=
  frame.take originOffset ++ LittleEndian.ofUInt32 origin ++ frame.drop (originOffset + 4)

/-- The origin of a frame whose header is there and carries the mark, whatever follows it. -/
def peekOrigin (frame : List UInt8) : Option UInt32 :=
  if frame.length < headerSize ∨ frame.take 4 ≠ magic then none else some (headerOrigin frame)

end Frame

namespace Message

def encode (m : Message) : Except FrameFault (List UInt8) := do
  let catalog ← m.catalog.toBytes
  let track ← m.track.toBytes
  let diagnostic ← Slot.diagnostic.write m.diagnostic
  return Frame.header m ++ catalog ++ track ++ diagnostic

/-- The message in a frame. Size, mark, version, operation and status are looked at in this order,
then the texts as they stand. -/
def decode (frame : List UInt8) : Except FrameFault Message := do
  if frame.length ≠ Frame.size then throw (.length Frame.size frame.length)
  let magic := frame.take 4
  if magic ≠ Frame.magic then throw (.badMagic magic)
  let version := LittleEndian.decode ((frame.drop 4).take 2)
  if version ≠ Frame.version then throw (.unsupportedVersion version)
  let operationTag := LittleEndian.decode ((frame.drop 6).take 1)
  let some operation := Operation.ofTag? operationTag | throw (.unknownOperation operationTag)
  let statusTag := LittleEndian.decode ((frame.drop 7).take 1)
  let some status := Status.ofTag? statusTag | throw (.unknownStatus statusTag)
  let afterHeader := frame.drop Frame.headerSize
  let afterCatalog := afterHeader.drop CatalogEntry.frameSize
  let afterTrack := afterCatalog.drop TrackEntry.frameSize
  let catalog ← CatalogEntry.ofBlock (afterHeader.take CatalogEntry.frameSize)
  let track ← TrackEntry.ofBlock (afterCatalog.take TrackEntry.frameSize)
  let diagnostic ← Slot.diagnostic.read (afterTrack.take Slot.diagnostic.width)
  return { origin := Frame.headerOrigin frame, operation, status, catalog, track, diagnostic }

end Message

end DiscCatalog
