import DiscCatalog.Channel.Port
import DiscCatalog.Host.Mailbox
import DiscCatalog.Settings

namespace DiscCatalog

structure QueueRef where
  key : Int32
  id : Nat
deriving DecidableEq

namespace QueueRef

def send (type : UInt32) (frame : List UInt8) (r : QueueRef) (q : Mailboxes) :
    Except ChannelFault Unit × Mailboxes :=
  match q.send r.id type.toNat frame with
  | (.ok (), q) => (.ok (), q)
  | (.error e, q) => (.error (.ofQueue "msgsnd" r.key e), q)

/-- Receives a message of a type, or of any. One more byte than a frame has is asked for, so that a
message that is too long shows. -/
def receive (type : UInt32) (r : QueueRef) (q : Mailboxes) : Except ChannelFault Message × Mailboxes :=
  match q.receive r.id type.toNat (Frame.size + 1) with
  | (.ok payload, q) => (messageOfRead payload, q)
  | (.error e, q) => (.error (.ofQueue "msgrcv" r.key e), q)

end QueueRef

structure QueueServer where
  requests : QueueRef
  replies : QueueRef
  closed : Bool := false
deriving DecidableEq

namespace QueueServer

def openOn (settings : QueueSettings) (q : Mailboxes) : Except ChannelFault QueueServer × Mailboxes :=
  let permissions := settings.permissions.toNat &&& 0o777
  match q.findOrAdd settings.serverKey permissions with
  | (.error e, q) => (.error (.ofQueue "msgget" settings.serverKey e), q)
  | (.ok requests, q) =>
    match q.findOrAdd settings.clientKey permissions with
    | (.error e, q) => (.error (.ofQueue "msgget" settings.clientKey e), q)
    | (.ok replies, q) =>
      (.ok { requests := ⟨settings.serverKey, requests⟩, replies := ⟨settings.clientKey, replies⟩ }, q)

def receive : QueueServer × Mailboxes → Except ChannelFault Message × QueueServer × Mailboxes
  | (s, q) =>
    if s.closed then (.error .closed, s, q)
    else
      let (outcome, q) := s.requests.receive 0 q
      (outcome, s, q)

def poll (w : QueueServer × Mailboxes) : Option (Except ChannelFault Message) × QueueServer × Mailboxes :=
  match receive w with
  | (.error .interrupted, w) => (none, w)
  | (outcome, w) => (some outcome, w)

def replyBegin (_origin : UInt32) : QueueServer × Mailboxes → Except ChannelFault Unit × QueueServer × Mailboxes
  | (s, q) => (if s.closed then .error .closed else .ok (), s, q)

/-- The reply goes to the client that its own origin names. -/
def replySend (m : Message) : QueueServer × Mailboxes → Except ChannelFault Unit × QueueServer × Mailboxes
  | (s, q) =>
    if s.closed then (.error .closed, s, q)
    else match m.encode with
    | .error f => (.error (.frame f), s, q)
    | .ok frame =>
      let (outcome, q) := s.replies.send m.origin frame q
      (outcome, s, q)

def close : QueueServer × Mailboxes → QueueServer × Mailboxes
  | (s, q) =>
    if s.closed then (s, q)
    else ({ s with closed := true }, ((q.remove s.requests.id).2.remove s.replies.id).2)

def port : ServerPort (QueueServer × Mailboxes) where
  receive := receive
  replyBegin := replyBegin
  replySend := replySend
  replyEnd w := w
  close := close
  backlog w := ((w.2.box? w.1.requests.id).map (·.letters.length)).getD 0

end QueueServer

structure QueueClient where
  origin : UInt32
  requests : QueueRef
  replies : QueueRef
  closed : Bool := false
deriving DecidableEq

namespace QueueClient

def attach (key : Int32) (q : Mailboxes) : Except ChannelFault QueueRef × Mailboxes :=
  if key = 0 then
    let (id, q) := q.add key 0
    (.ok ⟨key, id⟩, q)
  else match q.find key with
  | .ok id => (.ok ⟨key, id⟩, q)
  | .error _ => (.error .serverNotRunning, q)

def openOn (settings : QueueSettings) (origin : UInt32) (q : Mailboxes) :
    Except ChannelFault QueueClient × Mailboxes :=
  if origin = 0 then (.error (.invalidOrigin origin), q)
  else match attach settings.serverKey q with
  | (.error f, q) => (.error f, q)
  | (.ok requests, q) =>
    match attach settings.clientKey q with
    | (.error f, q) => (.error f, q)
    | (.ok replies, q) => (.ok { origin, requests, replies }, q)

def send (m : Message) : QueueClient × Mailboxes → Except ChannelFault Unit × QueueClient × Mailboxes
  | (c, q) =>
    if c.closed then (.error .closed, c, q)
    else match stampedFrame c.origin m with
    | .error f => (.error f, c, q)
    | .ok frame =>
      let (outcome, q) := c.requests.send c.origin frame q
      (outcome, c, q)

def replyBegin : QueueClient × Mailboxes → Except ChannelFault Unit × QueueClient × Mailboxes
  | (c, q) => (if c.closed then .error .closed else .ok (), c, q)

def replyReceive : QueueClient × Mailboxes → Except ChannelFault Message × QueueClient × Mailboxes
  | (c, q) =>
    if c.closed then (.error .closed, c, q)
    else
      let (outcome, q) := c.replies.receive c.origin q
      (outcome, c, q)

def close : QueueClient × Mailboxes → QueueClient × Mailboxes
  | (c, q) => ({ c with closed := true }, q)

def port : ClientPort (QueueClient × Mailboxes) where
  origin w := w.1.origin
  send := send
  replyBegin := replyBegin
  replyReceive := replyReceive
  replyEnd w := w
  close := close
  backlog w := ((w.2.box? w.1.replies.id).map (·.letters.length)).getD 0

end QueueClient

end DiscCatalog
