import DiscCatalog.Errno
import DiscCatalog.Host.Pipe

namespace DiscCatalog

/-- A place in the file tree: the names of the directories that lead to it and its own name. -/
abbrev Location := List String

inductive Content where
  | directory
  | file (bytes : List UInt8)
  | pipe (buffer : PipeBuffer)
  | link (target : String)
  /-- Swallows every write and gives nothing to read. -/
  | sink
  /-- Refuses every write for want of space. -/
  | full
deriving DecidableEq, Inhabited

structure Node where
  content : Content
  permissions : Nat
deriving DecidableEq, Inhabited

inductive Access where
  | read
  | write
deriving DecidableEq, Inhabited

structure Handle where
  node : Nat
  access : Access
  offset : Nat := 0
  blocking : Bool := true
  locked : Bool := false
deriving DecidableEq, Inhabited

/-- Names refer to nodes by their position, so that a node outlives its name while a handle is open;
handles are known by their position too, and a closed one leaves a gap. -/
structure Host where
  names : List (Location × Nat)
  nodes : List Node
  handles : List (Option Handle) := []
  directory : Location := []
  pipePages : Nat := PipeBuffer.usualPages
deriving DecidableEq, Inhabited

namespace Host

def withheld : Nat := 0o022

def grant (asked : Nat) : Nat := (asked &&& 0o7777) &&& (0o7777 ^^^ withheld)

def nodeOf? (h : Host) (place : Location) : Option Nat := h.names.lookup place

def node? (h : Host) (place : Location) : Option Node := h.nodeOf? place >>= (h.nodes[·]?)

def contentOf? (h : Host) (node : Nat) : Option Content := h.nodes[node]?.map (·.content)

def content? (h : Host) (place : Location) : Option Content := (h.node? place).map (·.content)

def handle? (h : Host) (handle : Nat) : Option Handle := h.handles[handle]?.join

def handlesOf (h : Host) (node : Nat) : List Handle :=
  h.handles.filterMap fun handle => handle.filter (·.node = node)

def hasReader (h : Host) (node : Nat) : Bool := (h.handlesOf node).any (·.access = .read)

def hasWriter (h : Host) (node : Nat) : Bool := (h.handlesOf node).any (·.access = .write)

def setContent (h : Host) (node : Nat) (content : Content) : Host :=
  { h with nodes := h.nodes.modify node fun n => { n with content } }

def setHandle (h : Host) (handle : Nat) (value : Handle) : Host :=
  { h with handles := h.handles.set handle (some value) }

def create (h : Host) (place : Location) (node : Node) : Host :=
  { h with names := h.names ++ [(place, h.nodes.length)], nodes := h.nodes ++ [node] }

def forget (h : Host) (place : Location) : Host :=
  { h with names := h.names.filter (·.1 ≠ place) }

def hold (h : Host) (handle : Handle) : Nat × Host :=
  (h.handles.length, { h with handles := h.handles ++ [some handle] })

/-- Closes a handle. What waits in a pipe is lost with its last handle. -/
def close (handle : Nat) (h : Host) : Host :=
  match h.handle? handle with
  | none => h
  | some held =>
    let h := { h with handles := h.handles.set handle none }
    match h.contentOf? held.node with
    | some (.pipe _) =>
      if (h.handlesOf held.node).isEmpty then h.setContent held.node (.pipe {}) else h
    | _ => h

def ensure (h : Host) (place : Location) : List String → Host
  | [] => h
  | name :: rest =>
    let there := place ++ [name]
    let h := if (h.nodeOf? there).isSome then h else h.create there ⟨.directory, 0o755⟩
    h.ensure there rest

def fresh (home : Location) : Host :=
  let fixed : Node := { content := .directory, permissions := 0o555 }
  let shared : Node := { content := .directory, permissions := 0o777 }
  let base : Host := { names := [([], 0)], nodes := [fixed] }
  let base := ((base.create ["tmp"] shared).create ["var"] fixed).create ["var", "tmp"] shared
  let base := ((base.create ["dev"] fixed).create ["dev", "null"] ⟨.sink, 0o666⟩).create
    ["dev", "full"] ⟨.full, 0o666⟩
  let grown := base.ensure [] home
  { grown with directory := home }

end Host

end DiscCatalog
