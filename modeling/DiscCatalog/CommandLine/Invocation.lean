import DiscCatalog.Record
import DiscCatalog.Settings

namespace DiscCatalog

inductive Format where
  | text
  | json
deriving DecidableEq, Repr, Inhabited

inductive Errand where
  | createDatabase
  | add (entry : CatalogEntry)
  | get (key : String)
  | delete (key : String)
  | addTrack (entry : TrackEntry)
  | getTrack (key : String) (number : Int32)
  | deleteTrack (key : String) (number : Int32)
  | search (query : String)
deriving DecidableEq

inductive Command where
  | serve (new : Bool) (dataDirectory : Option String)
  | errand (e : Errand)
deriving DecidableEq

structure Invocation where
  command : Command
  settingsFile : Option String := none
  kind : Option ChannelKind := none
  pipeDirectory : Option String := none
  format : Format := .text
deriving DecidableEq

def Invocation.overlay (i : Invocation) (s : Settings) : Settings :=
  let data := match i.command with
    | .serve _ directory => directory
    | .errand _ => none
  { s with
    kind := i.kind.getD s.kind
    pipe := { s.pipe with directory := i.pipeDirectory.getD s.pipe.directory }
    dataDirectory := data.getD s.dataDirectory }

end DiscCatalog
