namespace DiscCatalog

structure CatalogEntry where
  catalog : String := ""
  title : String := ""
  kind : String := ""
  artist : String := ""
deriving DecidableEq, Repr, Inhabited

structure TrackEntry where
  catalog : String := ""
  number : Int32 := 0
  text : String := ""
deriving DecidableEq, Inhabited

namespace CatalogEntry

def ofKey (catalog : String) : CatalogEntry := { catalog }

/-- The entry without a key stands for "no record". -/
def isEmpty (e : CatalogEntry) : Bool := e.catalog.isEmpty

def present? (e : CatalogEntry) : Option CatalogEntry := if e.isEmpty then none else some e

end CatalogEntry

namespace TrackEntry

def ofKey (catalog : String) (number : Int32) : TrackEntry := { catalog, number }

def isEmpty (e : TrackEntry) : Bool := e.catalog.isEmpty

def present? (e : TrackEntry) : Option TrackEntry := if e.isEmpty then none else some e

end TrackEntry

end DiscCatalog
