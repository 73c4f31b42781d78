import DiscCatalog.CommandLine.Invocation
import DiscCatalog.Fault
import DiscCatalog.JsonText

namespace DiscCatalog

namespace CatalogEntry

def line (e : CatalogEntry) : String := s!"{e.catalog}\t{e.title}\t{e.kind}\t{e.artist}\n"

def json (e : CatalogEntry) : JsonValue := .object [
  ("catalog", .string e.catalog), ("title", .string e.title), ("type", .string e.kind),
  ("artist", .string e.artist)]

end CatalogEntry

namespace TrackEntry

def line (e : TrackEntry) : String := s!"{e.catalog}\t{e.number.toInt}\t{e.text}\n"

def json (e : TrackEntry) : JsonValue := .object [
  ("catalog", .string e.catalog), ("track_no", .integer e.number.toInt), ("text", .string e.text)]

end TrackEntry

namespace Format

def catalogs (entries : List CatalogEntry) : Format → String
  | text => String.join (entries.map (·.line))
  | json => (JsonValue.array (entries.map (·.json))).pretty ++ "\n"

def track (entry : TrackEntry) : Format → String
  | text => entry.line
  | json => entry.json.pretty ++ "\n"

def done (message : String) : Format → String
  | text => message ++ "\n"
  | json => (JsonValue.object [("message", .string message), ("status", .string "ok")]).compact ++ "\n"

end Format

structure Failure where
  context : String
  causes : List String := []
deriving DecidableEq

namespace Failure

/-- A text whose further lines begin with as many blanks as its first line has characters before it. -/
def indented (first : String) (text : String) : String :=
  let more := String.ofList ('\n' :: List.replicate first.length ' ')
  first ++ String.intercalate more (text.splitOn "\n")

def numeral (n : Nat) : String :=
  let digits := toString n
  String.ofList (List.replicate (5 - digits.length) ' ') ++ digits

def causeLines : List String → List String
  | [] => []
  | [cause] => [indented "    " cause]
  | causes => causes.zipIdx.map fun (cause, n) => indented (numeral n ++ ": ") cause

def message (f : Failure) : String :=
  let causes := match causeLines f.causes with
    | [] => ""
    | lines => "\n\nCaused by:\n" ++ String.intercalate "\n" lines
  "Error: " ++ f.context ++ causes ++ "\n"

def ofClient (context : String) (f : ClientFault) : Failure := ⟨context, f.message :: f.causes⟩

def ofServer (context : String) (f : ServerFault) : Failure := ⟨context, f.message :: f.causes⟩

end Failure

end DiscCatalog
