import DiscCatalog.Frame.Slot
import DiscCatalog.Frame.LittleEndian
import DiscCatalog.Record

namespace DiscCatalog

namespace CatalogEntry

def frameSize : Nat := Slot.catalog.width + Slot.title.width + Slot.kind.width + Slot.artist.width

def toBytes (e : CatalogEntry) : Except FrameFault (List UInt8) := do
  let catalog ← Slot.catalog.write e.catalog
  let title ← Slot.title.write e.title
  let kind ← Slot.kind.write e.kind
  let artist ← Slot.artist.write e.artist
  return catalog ++ title ++ kind ++ artist

def ofBlock (block : List UInt8) : Except FrameFault CatalogEntry := do
  let afterCatalog := block.drop Slot.catalog.width
  let afterTitle := afterCatalog.drop Slot.title.width
  let afterKind := afterTitle.drop Slot.kind.width
  let catalog ← Slot.catalog.read (block.take Slot.catalog.width)
  let title ← Slot.title.read (afterCatalog.take Slot.title.width)
  let kind ← Slot.kind.read (afterTitle.take Slot.kind.width)
  let artist ← Slot.artist.read (afterKind.take Slot.artist.width)
  return { catalog, title, kind, artist }

def ofBytes (bs : List UInt8) : Except FrameFault CatalogEntry :=
  if bs.length = frameSize then ofBlock bs else .error (.length frameSize bs.length)

end CatalogEntry

namespace TrackEntry

def frameSize : Nat := Slot.trackCatalog.width + 4 + Slot.trackText.width

def toBytes (e : TrackEntry) : Except FrameFault (List UInt8) := do
  let catalog ← Slot.trackCatalog.write e.catalog
  let text ← Slot.trackText.write e.text
  return catalog ++ LittleEndian.ofInt32 e.number ++ text

def ofBlock (block : List UInt8) : Except FrameFault TrackEntry := do
  let afterCatalog := block.drop Slot.trackCatalog.width
  let afterNumber := afterCatalog.drop 4
  let catalog ← Slot.trackCatalog.read (block.take Slot.trackCatalog.width)
  let text ← Slot.trackText.read (afterNumber.take Slot.trackText.width)
  return { catalog, number := LittleEndian.toInt32 (afterCatalog.take 4), text }

end TrackEntry

end DiscCatalog
