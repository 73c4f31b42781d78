import DiscCatalog.Record
import DiscCatalog.Frame.Slot

namespace DiscCatalog

inductive Operation where
  | createDatabase
  | getCatalog
  | getTrack
  | addCatalog
  | addTrack
  | deleteCatalog
  | deleteTrack
  | findCatalog
deriving DecidableEq, Repr, Inhabited

namespace Operation

def name : Operation → String
  | createDatabase => "CreateDatabase"
  | getCatalog => "GetCatalog"
  | getTrack => "GetTrack"
  | addCatalog => "AddCatalog"
  | addTrack => "AddTrack"
  | deleteCatalog => "DeleteCatalog"
  | deleteTrack => "DeleteTrack"
  | findCatalog => "FindCatalog"

def tag : Operation → Nat
  | createDatabase => 0
  | getCatalog => 1
  | getTrack => 2
  | addCatalog => 3
  | addTrack => 4
  | deleteCatalog => 5
  | deleteTrack => 6
  | findCatalog => 7

def ofTag? : Nat → Option Operation
  | 0 => some createDatabase
  | 1 => some getCatalog
  | 2 => some getTrack
  | 3 => some addCatalog
  | 4 => some addTrack
  | 5 => some deleteCatalog
  | 6 => some deleteTrack
  | 7 => some findCatalog
  | _ => none

end Operation

/-- How a request went. `noMoreResults` ends the replies to a search. -/
inductive Status where
  | ok
  | failed
  | noMoreResults
deriving DecidableEq, Repr, Inhabited

namespace Status

def tag : Status → Nat
  | ok => 0
  | failed => 1
  | noMoreResults => 2

def ofTag? : Nat → Option Status
  | 0 => some ok
  | 1 => some failed
  | 2 => some noMoreResults
  | _ => none

end Status

inductive Request where
  | createDatabase
  | getCatalog (catalog : String)
  | getTrack (catalog : String) (number : Int32)
  | addCatalog (entry : CatalogEntry)
  | addTrack (entry : TrackEntry)
  | deleteCatalog (catalog : String)
  | deleteTrack (catalog : String) (number : Int32)
  | findCatalog (query : String)
deriving DecidableEq, Inhabited

def Request.operation : Request → Operation
  | createDatabase => .createDatabase
  | getCatalog _ => .getCatalog
  | getTrack _ _ => .getTrack
  | addCatalog _ => .addCatalog
  | addTrack _ => .addTrack
  | deleteCatalog _ => .deleteCatalog
  | deleteTrack _ _ => .deleteTrack
  | findCatalog _ => .findCatalog

structure Message where
  origin : UInt32 := 0
  operation : Operation := .createDatabase
  status : Status := .ok
  catalog : CatalogEntry := {}
  track : TrackEntry := {}
  diagnostic : String := ""
deriving DecidableEq, Inhabited

namespace Message

/-- The message by which the client `origin` sends a request. A search sends its text in the place
of the catalog key. -/
def ofRequest (origin : UInt32) (r : Request) : Message :=
  let blank : Message := { origin, operation := r.operation }
  match r with
  | .createDatabase => blank
  | .getCatalog key | .deleteCatalog key | .findCatalog key =>
    { blank with catalog := CatalogEntry.ofKey key }
  | .getTrack key number | .deleteTrack key number => { blank with track := TrackEntry.ofKey key number }
  | .addCatalog entry => { blank with catalog := entry }
  | .addTrack entry => { blank with track := entry }

def request (m : Message) : Request :=
  match m.operation with
  | .createDatabase => .createDatabase
  | .getCatalog => .getCatalog m.catalog.catalog
  | .getTrack => .getTrack m.track.catalog m.track.number
  | .addCatalog => .addCatalog m.catalog
  | .addTrack => .addTrack m.track
  | .deleteCatalog => .deleteCatalog m.catalog.catalog
  | .deleteTrack => .deleteTrack m.track.catalog m.track.number
  | .findCatalog => .findCatalog m.catalog.catalog

def reply (m : Message) (status : Status) : Message := { m with status, diagnostic := "" }

/-- A diagnostic that fits its slot: cut to the slot's capacity, with a blank for every NUL. -/
def fitDiagnostic (text : String) : String :=
  String.ofList <| (Text.clip Slot.diagnostic.capacity text).toList.map
    fun c => if c = '\x00' then ' ' else c

def withDiagnostic (m : Message) (text : String) : Message :=
  { m with diagnostic := fitDiagnostic text }

def rejection (origin : UInt32) (text : String) : Message :=
  { ofRequest origin .createDatabase with status := .failed }.withDiagnostic text

end Message

end DiscCatalog
