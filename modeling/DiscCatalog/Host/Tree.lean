import DiscCatalog.Host.Walk

namespace DiscCatalog

namespace Host

def make (path : String) (content : Content) (asked : Nat) (h : Host) : Except Errno Unit × Host :=
  match h.walk false path with
  | .error e => (.error e, h)
  | .ok place =>
    if (h.nodeOf? place).isSome then (.error .fileExists, h)
    else if h.mayChange place then
      (.ok (), h.create place { content, permissions := grant asked })
    else (.error .accessDenied, h)

def makePipe (path : String) (asked : Nat) (h : Host) : Except Errno Unit × Host :=
  h.make path (.pipe {}) asked

def makeLink (path target : String) (h : Host) : Except Errno Unit × Host :=
  match h.make path (.link target) 0o777 with
  | (.ok (), h) =>
    let made := h.nodes.length - 1
    (.ok (), { h with nodes := h.nodes.modify made fun node => { node with permissions := 0o777 } })
  | failed => failed

def trimSlashes (path : String) : String :=
  let kept := (path.toList.reverse.dropWhile (· = '/')).reverse
  if kept.isEmpty then path else String.ofList kept

def makeDirectory (path : String) (h : Host) : Except Errno Unit × Host :=
  h.make (trimSlashes path) .directory 0o777

/-- Makes a directory and, first, those above it that are missing. A directory that is there already is
no failure. The paths come innermost first. -/
def makeDirectoriesAlong : List String → Host → Except Errno Unit × Host
  | [], h => (.error .noEntry, h)
  | "" :: _, h => (.ok (), h)
  | path :: above, h =>
    let settle (e : Errno) (h : Host) : Except Errno Unit × Host :=
      if h.isDirectory path then (.ok (), h) else (.error e, h)
    match h.makeDirectory path with
    | (.ok (), h) => (.ok (), h)
    | (.error e, h) =>
      if e ≠ .noEntry then settle e h
      else match makeDirectoriesAlong above h with
        | (.error e, h) => (.error e, h)
        | (.ok (), h) =>
          match h.makeDirectory path with
          | (.ok (), h) => (.ok (), h)
          | (.error e, h) => settle e h

def makeDirectories (path : String) (h : Host) : Except Errno Unit × Host :=
  makeDirectoriesAlong (lineage path) h

/-- Takes a name away, a link's own name if a link stands there. Directories are refused. -/
def unlink (path : String) (h : Host) : Except Errno Unit × Host :=
  match h.find false path with
  | .error e => (.error e, h)
  | .ok (place, _, node) =>
    if ¬ h.mayChange place then (.error .accessDenied, h)
    else if node.content = .directory then (.error .isDirectory, h)
    else (.ok (), h.forget place)

def rename (old new : String) (h : Host) : Except Errno Unit × Host :=
  match h.find false old, h.walk false new with
  | .error e, _ => (.error e, h)
  | _, .error e => (.error e, h)
  | .ok (source, number, _), .ok target =>
    if h.content? target = some .directory then (.error .isDirectory, h)
    else if source = target then (.ok (), h)
    else if h.mayChange source ∧ h.mayChange target then
      let bare := (h.forget source).forget target
      (.ok (), { bare with names := bare.names ++ [(target, number)] })
    else (.error .accessDenied, h)

def removeAll (path : String) (h : Host) : Except Errno Unit × Host :=
  match h.find false path with
  | .error e => (.error e, h)
  | .ok (place, _, _) => (.ok (), { h with names := h.names.filter fun entry => ¬ place.isPrefixOf entry.1 })

def list (path : String) (h : Host) : Except Errno (List (String × Node)) :=
  match h.find true path with
  | .error e => .error e
  | .ok (place, _, node) =>
    if node.content ≠ .directory then .error .notDirectory
    else
      let inside := h.names.filterMap fun (location, number) =>
        match location.getLast?, h.nodes[number]? with
        | some name, some node => if location = place ++ [name] then some (name, node) else none
        | _, _ => none
      .ok (inside.mergeSort fun a b => a.1 ≤ b.1)

end Host

end DiscCatalog
