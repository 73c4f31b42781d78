import DiscCatalog.Channel.Port
import DiscCatalog.Host.File
import DiscCatalog.Host.Tree
import DiscCatalog.Settings

namespace DiscCatalog

def removeStale (path : String) (h : Host) : Except ChannelFault Unit × Host :=
  match h.unlink path with
  | (.ok (), h) => (.ok (), h)
  | (.error e, h) => (if e = .noEntry then .ok () else .error (.ofPipe "unlink" path e), h)

def replacePipe (path : String) (permissions : UInt32) (h : Host) : Except ChannelFault Unit × Host :=
  match removeStale path h with
  | (.error f, h) => (.error f, h)
  | (.ok (), h) =>
    match h.makePipe path permissions.toNat with
    | (.ok (), h) => (.ok (), h)
    | (.error e, h) => (.error (.ofPipe "mkfifo" path e), h)

def closeHeld (handle : Option Nat) (h : Host) : Host :=
  match handle with
  | some handle => h.close handle
  | none => h

def writeFrame (handle : Nat) (frame : List UInt8) (h : Host) : Except ChannelFault Unit × Host :=
  match h.write handle frame with
  | (.ok n, h) => (checkWritten n, h)
  | (.error e, h) => (.error (.ofTransfer e), h)

structure PipeServer where
  settings : PipeSettings
  path : String
  inbound : Option Nat
  /-- Whether the server waits, by its inbound handle, for somebody to open the pipe for writing. -/
  reopening : Bool := false
  outbound : Option Nat := none
  closed : Bool := false
deriving DecidableEq

namespace PipeServer

def openOn (settings : PipeSettings) (h : Host) : Except ChannelFault PipeServer × Host :=
  let path := settings.serverPath
  match replacePipe path settings.permissions h with
  | (.error f, h) => (.error f, h)
  | (.ok (), h) =>
    match h.openPath path .read false with
    | (.error e, h) => (.error (.ofPipe "open" path e), h)
    | (.ok handle, h) => (.ok { settings, path, inbound := some handle }, h.makeBlocking handle)

abbrev Poll := Option (Except ChannelFault Message)

/-- Reads what was opened anew. Nothing to read means waiting: on a pipe for somebody who writes. -/
def readFresh (handle : Nat) (s : PipeServer) (h : Host) : Poll × PipeServer × Host :=
  match h.read handle Frame.size with
  | (.error .interrupted, h) =>
    (none, { s with inbound := some handle, reopening := false }, h)
  | (.ok [], h) => (none, { s with inbound := some handle, reopening := true }, h)
  | (.error e, h) =>
    (some (.error (.ofTransfer e)), { s with inbound := some handle, reopening := false }, h)
  | (.ok bytes, h) =>
    (some (messageOfRead bytes), { s with inbound := some handle, reopening := false }, h)

def reopen (s : PipeServer) (h : Host) : Poll × PipeServer × Host :=
  match h.openPath s.path .read false with
  | (.error e, h) => (some (.error (.ofPipe "open" s.path e)), { s with inbound := none }, h)
  | (.ok handle, h) => readFresh handle { s with inbound := none } (h.makeBlocking handle)

def poll : PipeServer × Host → Poll × PipeServer × Host
  | (s, h) =>
    if s.closed then (some (.error .closed), s, h)
    else match s.inbound with
    | none => reopen s h
    | some handle =>
      if s.reopening then readFresh handle s h
      else match h.read handle Frame.size with
      | (.error .interrupted, h) => (none, s, h)
      | (.error e, h) => (some (.error (.ofTransfer e)), s, h)
      | (.ok [], h) => reopen { s with inbound := none } (h.close handle)
      | (.ok bytes, h) => (some (messageOfRead bytes), s, h)

/-- Gives up waiting, as a signal makes it do. A pipe that was being opened is not open then. -/
def abandon : PipeServer × Host → PipeServer × Host
  | (s, h) =>
    if s.reopening then ({ s with inbound := none, reopening := false }, closeHeld s.inbound h)
    else (s, h)

def receive (w : PipeServer × Host) : Except ChannelFault Message × PipeServer × Host :=
  match poll w with
  | (some outcome, w) => (outcome, w)
  | (none, w) => (.error .interrupted, abandon w)

def replyBegin (origin : UInt32) : PipeServer × Host → Except ChannelFault Unit × PipeServer × Host
  | (s, h) =>
    if s.closed then (.error .closed, s, h)
    else
      let path := s.settings.clientPath origin
      match h.openPath path .write true with
      | (.error e, h) => (.error (.ofPipe "open" path e), s, h)
      | (.ok handle, h) => (.ok (), { s with outbound := some handle }, closeHeld s.outbound h)

def replySend (m : Message) : PipeServer × Host → Except ChannelFault Unit × PipeServer × Host
  | (s, h) =>
    match s.outbound with
    | none => (.error .noReplyChannel, s, h)
    | some handle =>
      match m.encode with
      | .error f => (.error (.frame f), s, h)
      | .ok frame =>
        let (outcome, h) := writeFrame handle frame h
        (outcome, s, h)

def replyEnd : PipeServer × Host → PipeServer × Host
  | (s, h) => ({ s with outbound := none }, closeHeld s.outbound h)

/-- Closes what is open and takes the pipe's name away, whatever stands there now. -/
def close : PipeServer × Host → PipeServer × Host
  | (s, h) =>
    if s.closed then (s, h)
    else
      let h := (closeHeld s.outbound (closeHeld s.inbound h)).unlink s.path
      ({ s with closed := true, inbound := none, outbound := none, reopening := false }, h.2)

def backlog : PipeServer × Host → Nat
  | (s, h) =>
    match s.inbound.bind h.handle? with
    | none => 0
    | some held =>
      match h.contentOf? held.node with
      | some (.pipe buffer) => buffer.content.length
      | some (.file bytes) => bytes.length
      | _ => 0

def port : ServerPort (PipeServer × Host) where
  receive := receive
  replyBegin := replyBegin
  replySend := replySend
  replyEnd := replyEnd
  close := close
  backlog := backlog

end PipeServer

structure PipeClient where
  origin : UInt32
  path : String
  toServer : Option Nat
  reader : Option Nat := none
  writer : Option Nat := none
  closed : Bool := false
deriving DecidableEq

namespace PipeClient

/-- Finds a server that reads. A pipe that nobody reads is looked at again a few times, which changes
nothing here, where nothing else happens in between. -/
def connect (settings : PipeSettings) (h : Host) : Except ChannelFault Nat × Host :=
  let path := settings.serverPath
  match h.openPath path .write false with
  | (.ok handle, h) => (.ok handle, h.makeBlocking handle)
  | (.error e, h) =>
    (.error (if e = .noEntry ∨ e = .noDevice then .serverNotRunning else .ofPipe "open" path e), h)

def openOn (settings : PipeSettings) (origin : UInt32) (h : Host) : Except ChannelFault PipeClient × Host :=
  match connect settings h with
  | (.error f, h) => (.error f, h)
  | (.ok toServer, h) =>
    let path := settings.clientPath origin
    match replacePipe path settings.permissions h with
    | (.error f, h) => (.error f, h.close toServer)
    | (.ok (), h) => (.ok { origin, path, toServer := some toServer }, h)

def send (m : Message) : PipeClient × Host → Except ChannelFault Unit × PipeClient × Host
  | (c, h) =>
    match c.toServer with
    | none => (.error .closed, c, h)
    | some handle =>
      match stampedFrame c.origin m with
      | .error f => (.error f, c, h)
      | .ok frame =>
        let (outcome, h) := writeFrame handle frame h
        (outcome, c, h)

def replyBegin : PipeClient × Host → Except ChannelFault Unit × PipeClient × Host
  | (c, h) =>
    if c.closed then (.error .closed, c, h)
    else if c.reader.isSome ∧ c.writer.isSome then (.ok (), c, h)
    else match h.openPath c.path .read false with
    | (.error e, h) => (.error (.ofPipe "open" c.path e), c, h)
    | (.ok reader, h) =>
      match h.openPath c.path .write true with
      | (.error e, h) => (.error (.ofPipe "open" c.path e), c, h.close reader)
      | (.ok writer, h) =>
        (.ok (), { c with reader := some reader, writer := some writer }, h.makeBlocking reader)

def replyReceive : PipeClient × Host → Except ChannelFault Message × PipeClient × Host
  | (c, h) =>
    match c.reader with
    | none => (.error .noReplyChannel, c, h)
    | some handle =>
      match h.read handle Frame.size with
      | (.error e, h) => (.error (.ofTransfer e), c, h)
      | (.ok [], h) => (.error .peerClosed, c, h)
      | (.ok bytes, h) => (messageOfRead bytes, c, h)

def close : PipeClient × Host → PipeClient × Host
  | (c, h) =>
    if c.closed then (c, h)
    else
      let h := closeHeld c.writer (closeHeld c.reader (closeHeld c.toServer h))
      ({ c with closed := true, toServer := none, reader := none, writer := none }, (h.unlink c.path).2)

def backlog : PipeClient × Host → Nat
  | (c, h) =>
    match c.reader.bind h.handle? with
    | none => 0
    | some held =>
      match h.contentOf? held.node with
      | some (.pipe buffer) => buffer.content.length
      | some (.file bytes) => bytes.length
      | _ => 0

def port : ClientPort (PipeClient × Host) where
  origin w := w.1.origin
  send := send
  replyBegin := replyBegin
  replyReceive := replyReceive
  replyEnd w := w
  close := close
  backlog := backlog

end PipeClient

end DiscCatalog
