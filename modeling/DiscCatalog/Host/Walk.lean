import DiscCatalog.Host

namespace DiscCatalog

def pathPieces (path : String) : List String := (path.toList.splitOn '/').map String.ofList

def isRooted (path : String) : Bool := path.toList.head? = some '/'

def endsInSlash (path : String) : Bool := path.toList.getLast? = some '/'

def pathNames (path : String) : List String := (pathPieces path).filter (· ≠ "")

/-- The steps that a path asks for. A path that ends in a slash asks for a directory, which a last
step "." asks for too. -/
def pathSteps (path : String) : List String :=
  if endsInSlash path then pathNames path ++ ["."] else pathNames path

def joinPath (directory name : String) : String :=
  if isRooted name ∨ directory = "" then name
  else if endsInSlash directory then directory ++ name
  else directory ++ "/" ++ name

def pathParts (path : String) : List String :=
  match pathPieces path with
  | "." :: rest => "." :: rest.filter fun name => name ≠ "" ∧ name ≠ "."
  | names => names.filter fun name => name ≠ "" ∧ name ≠ "."

def suffixes : List String → List (List String)
  | [] => [[]]
  | name :: rest => (name :: rest) :: suffixes rest

def lineage (path : String) : List String :=
  let root := if isRooted path then "/" else ""
  let above := (suffixes (pathParts path).reverse).drop 1
  path :: above.map fun names => root ++ String.intercalate "/" names.reverse

namespace Host

def maxLinks : Nat := 40

def maxName : Nat := 255
def maxPath : Nat := 4095

/-- Walks on from the directory `here`. The place at the end need not be taken; `follow` says whether
a link there is followed. -/
def walkFrom (h : Host) (follow : Bool) (links : Nat) (here : Location) (steps : List String) :
    Except Errno Location :=
  match steps with
  | [] => .ok here
  | "." :: rest => walkFrom h follow links here rest
  | ".." :: rest => walkFrom h follow links here.dropLast rest
  | name :: rest =>
    let there := here ++ [name]
    if maxName < name.utf8ByteSize then .error .nameTooLong
    else match h.content? there with
    | none => if rest.isEmpty then .ok there else .error .noEntry
    | some (.link target) =>
      if rest.isEmpty ∧ ¬ follow then .ok there
      else match links with
        | 0 => .error .linkLoop
        | links + 1 =>
          let start := if isRooted target then [] else here
          walkFrom h follow links start (pathSteps target ++ rest)
    | some .directory => walkFrom h follow links there rest
    | some _ => if rest.isEmpty then .ok there else .error .notDirectory
termination_by (links, steps.length)

def walk (h : Host) (follow : Bool) (path : String) : Except Errno Location :=
  if path = "" then .error .noEntry
  else if '\x00' ∈ path.toList then .error .invalid
  else if maxPath < path.utf8ByteSize then .error .nameTooLong
  else
    let start := if isRooted path then [] else h.directory
    walkFrom h follow maxLinks start (pathSteps path)

def find (h : Host) (follow : Bool) (path : String) : Except Errno (Location × Nat × Node) := do
  let place ← h.walk follow path
  match h.nodeOf? place with
  | none => .error .noEntry
  | some number =>
    match h.nodes[number]? with
    | none => .error .noEntry
    | some node => .ok (place, number, node)

def mayChange (h : Host) (place : Location) : Bool :=
  match h.node? place.dropLast with
  | some node => node.permissions &&& 0o200 ≠ 0
  | none => false

def isDirectory (h : Host) (path : String) : Bool :=
  match h.find true path with
  | .ok (_, _, node) => node.content = .directory
  | .error _ => false

def holds (h : Host) (path : String) : Bool := (h.find true path).isOk

/-- Why no file can be made inside a directory, if none can. The empty path is where one is. -/
def roomFault? (h : Host) (directory : String) : Option Errno :=
  let path := if directory.isEmpty then "." else directory
  match h.find true path with
  | .error e => some e
  | .ok (_, _, node) =>
    if node.content ≠ .directory then some .notDirectory
    else if node.permissions &&& 0o200 = 0 then some .accessDenied
    else none

end Host

end DiscCatalog
