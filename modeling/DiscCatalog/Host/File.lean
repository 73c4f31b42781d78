import DiscCatalog.Host.Walk

namespace DiscCatalog

namespace Host

def allows (node : Node) : Access → Bool
  | .read => node.permissions &&& 0o400 ≠ 0
  | .write => node.permissions &&& 0o200 ≠ 0

/-- Whether opening a pipe goes through. Without a partner, a call that waits would do so for ever; one
that does not wait may still read, but has nobody to write to. -/
def meets (h : Host) (node : Nat) (access : Access) (blocking : Bool) : Except Errno Unit :=
  match access with
  | .read => if blocking ∧ ¬ h.hasWriter node then .error .interrupted else .ok ()
  | .write =>
    if h.hasReader node then .ok () else .error (if blocking then .interrupted else .noDevice)

def openPath (path : String) (access : Access) (blocking : Bool) (h : Host) : Except Errno Nat × Host :=
  match h.find true path with
  | .error e => (.error e, h)
  | .ok (_, number, node) =>
    let opened : Except Errno Unit := do
      if node.content = .directory ∧ access = .write then throw Errno.isDirectory
      unless allows node access do throw Errno.accessDenied
      if let .pipe _ := node.content then h.meets number access blocking
    match opened with
    | .error e => (.error e, h)
    | .ok () =>
      let (handle, h) := h.hold { node := number, access, blocking }
      (.ok handle, h)

def createFile (path : String) (truncate : Bool) (h : Host) : Except Errno Nat × Host :=
  match h.walk true path with
  | .error e => (.error e, h)
  | .ok place =>
    if (h.nodeOf? place).isSome then
      match h.openPath path .write true with
      | (.error e, h) => (.error e, h)
      | (.ok handle, h) =>
        match h.handle? handle with
        | some held =>
          match truncate, h.contentOf? held.node with
          | true, some (.file _) => (.ok handle, h.setContent held.node (.file []))
          | _, _ => (.ok handle, h)
        | none => (.ok handle, h)
    else if h.mayChange place then
      let number := h.nodes.length
      let h := h.create place { content := .file [], permissions := grant 0o666 }
      let (handle, h) := h.hold { node := number, access := .write }
      (.ok handle, h)
    else (.error .accessDenied, h)

/-- What the handle next gives, at most `room` bytes; nothing at the end of a file and on a pipe that
nobody writes to. -/
def read (handle room : Nat) (h : Host) : Except Errno (List UInt8) × Host :=
  match h.handle? handle with
  | none => (.error ⟨9⟩, h)
  | some held =>
    match h.contentOf? held.node with
    | some (.file bytes) =>
      let given := (bytes.drop held.offset).take room
      (.ok given, h.setHandle handle { held with offset := held.offset + given.length })
    | some (.pipe buffer) =>
      if buffer.content.isEmpty then
        if h.hasWriter held.node then
          (.error (if held.blocking then .interrupted else .tryAgain), h)
        else (.ok [], h)
      else
        let (given, buffer) := buffer.read room
        (.ok given, h.setContent held.node (.pipe buffer))
    | some .full => (.ok (List.replicate room 0), h)
    | some .directory => (.error .isDirectory, h)
    | _ => (.ok [], h)

def overwrite (bytes : List UInt8) (offset : Nat) (new : List UInt8) : List UInt8 :=
  bytes.take offset ++ List.replicate (offset - bytes.length) 0 ++ new ++ bytes.drop (offset + new.length)

def write (handle : Nat) (bytes : List UInt8) (h : Host) : Except Errno Nat × Host :=
  match h.handle? handle with
  | none => (.error ⟨9⟩, h)
  | some held =>
    match h.contentOf? held.node with
    | some (.file old) =>
      let h := h.setContent held.node (.file (overwrite old held.offset bytes))
      (.ok bytes.length, h.setHandle handle { held with offset := held.offset + bytes.length })
    | some (.pipe buffer) =>
      if ¬ h.hasReader held.node then (.error .brokenPipe, h)
      else if bytes.isEmpty then (.ok 0, h)
      else
        let (taken, buffer) := buffer.write h.pipePages bytes
        if taken = 0 then (.error (if held.blocking then .interrupted else .tryAgain), h)
        else (.ok taken, h.setContent held.node (.pipe buffer))
    | some .full => (.error .noSpace, h)
    | _ => (.ok bytes.length, h)

def makeBlocking (handle : Nat) (h : Host) : Host :=
  match h.handle? handle with
  | none => h
  | some held => h.setHandle handle { held with blocking := true }

def tryLock (handle : Nat) (h : Host) : Bool × Host :=
  match h.handle? handle with
  | none => (false, h)
  | some held =>
    if (h.handlesOf held.node).any (·.locked) then (held.locked, h)
    else (true, h.setHandle handle { held with locked := true })

/-- The whole content of a file. What is read to its end may also be a pipe or a device, of which this
gives what waits there. -/
def readFile (path : String) (h : Host) : Except Errno (List UInt8) :=
  match h.find true path with
  | .error e => .error e
  | .ok (_, _, node) =>
    if ¬ allows node .read then .error .accessDenied
    else match node.content with
    | .directory => .error .isDirectory
    | .file bytes => .ok bytes
    | .pipe buffer => .ok buffer.content
    | _ => .ok []

def writeFile (path : String) (bytes : List UInt8) (h : Host) : Except Errno Unit × Host :=
  match h.createFile path true with
  | (.error e, h) => (.error e, h)
  | (.ok handle, h) =>
    let (written, h) := h.write handle bytes
    (written.map fun _ => (), h.close handle)

end Host

end DiscCatalog
