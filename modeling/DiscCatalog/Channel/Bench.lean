import DiscCatalog.Channel.Medium

namespace DiscCatalog

inductive EndCall where
  | openServer (name : String)
  | openClient (name : String) (origin : UInt32)
  | receive (name : String)
  | replyBegin (name : String) (origin : UInt32)
  | replySend (name : String) (m : Message)
  | replyReceive (name : String)
  | replyEnd (name : String)
  | send (name : String) (m : Message)
  | close (name : String)
  | drop (name : String)
  /-- A server receives; once it waits for a client to connect, one does so and sends. -/
  | receiveFrom (server client : String) (origin : UInt32) (m : Message)
deriving DecidableEq

inductive EndAnswer where
  | done (outcome : Except ChannelFault Unit)
  | message (outcome : Except ChannelFault Message)
  | opened (outcome : Except ChannelFault UInt32)
  | received (message : Except ChannelFault Message) (opened : Except ChannelFault UInt32)
  | noSuchEnd

/-- Servers' and clients' ends of a transport, each under a name, whose calls are made one at a time. -/
structure Bench (W S C : Type) where
  world : W
  servers : List (String × S) := []
  clients : List (String × C) := []

def assign {α : Type} (name : String) (a : α) (entries : List (String × α)) : List (String × α) :=
  (name, a) :: entries.filter (·.1 ≠ name)

def unassign {α : Type} (name : String) (entries : List (String × α)) : List (String × α) :=
  entries.filter (·.1 ≠ name)

namespace Bench

variable {W S C : Type}

def onServer (name : String) (b : Bench W S C) (f : S × W → EndAnswer × S × W) : Option (EndAnswer × Bench W S C) :=
  (b.servers.lookup name).map fun s =>
    let (answer, s, world) := f (s, b.world)
    (answer, { b with world, servers := assign name s b.servers })

def onClient (name : String) (b : Bench W S C) (f : C × W → EndAnswer × C × W) : Option (EndAnswer × Bench W S C) :=
  (b.clients.lookup name).map fun c =>
    let (answer, c, world) := f (c, b.world)
    (answer, { b with world, clients := assign name c b.clients })

def drop (m : Medium W S C) (name : String) (b : Bench W S C) : Option (EndAnswer × Bench W S C) :=
  match b.servers.lookup name, b.clients.lookup name with
  | some s, _ =>
    some (.done (.ok ()), { b with
      world := (m.server.close (s, b.world)).2, servers := unassign name b.servers })
  | none, some c =>
    some (.done (.ok ()), { b with
      world := (m.client.close (c, b.world)).2, clients := unassign name b.clients })
  | none, none => none

/-- Opens a client's end under a name. The end that had the name is let go after that. -/
def openClient (m : Medium W S C) (name : String) (origin : UInt32) (b : Bench W S C) :
    Except ChannelFault UInt32 × Bench W S C :=
  match m.openClient origin b.world with
  | (.error f, world) => (.error f, { b with world })
  | (.ok c, world) =>
    let world := match b.clients.lookup name with
      | some old => (m.client.close (old, world)).2
      | none => world
    (.ok origin, { b with world, clients := assign name c b.clients })

def openServer (m : Medium W S C) (name : String) (b : Bench W S C) : EndAnswer × Bench W S C :=
  match m.openServer b.world with
  | (.error f, world) => (.done (.error f), { b with world })
  | (.ok s, world) =>
    let world := match b.servers.lookup name with
      | some old => (m.server.close (old, world)).2
      | none => world
    (.done (.ok ()), { b with world, servers := assign name s b.servers })

def receiveFrom (m : Medium W S C) (server client : String) (origin : UInt32) (request : Message)
    (b : Bench W S C) : Option (EndAnswer × Bench W S C) :=
  (b.servers.lookup server).map fun s =>
    let (early, s, world) := m.poll (s, b.world)
    let (opened, b) := openClient m client origin { b with world, servers := assign server s b.servers }
    let (sent, b) : Except ChannelFault Unit × Bench W S C :=
      match opened, b.clients.lookup client with
      | .ok _, some c =>
        let (sent, c, world) := m.client.send request (c, b.world)
        (sent, { b with world, clients := assign client c b.clients })
      | _, _ => (.ok (), b)
    let (outcome, s, world) : Except ChannelFault Message × S × W :=
      match early with
      | some outcome => (outcome, s, b.world)
      | none => m.server.receive (s, b.world)
    let opened := match sent with
      | .ok () => opened
      | .error f => .error f
    (.received outcome opened, { b with world, servers := assign server s b.servers })

def perform? (m : Medium W S C) (call : EndCall) (b : Bench W S C) : Option (EndAnswer × Bench W S C) :=
  let done {E : Type} (r : Except ChannelFault Unit × E) : EndAnswer × E := (.done r.1, r.2)
  let quiet {E : Type} (e : E) : EndAnswer × E := (.done (.ok ()), e)
  match call with
  | .openServer name => some (openServer m name b)
  | .openClient name origin =>
    let (opened, b) := openClient m name origin b
    some (.opened opened, b)
  | .receive name => b.onServer name fun w => (.message (m.server.receive w).1, (m.server.receive w).2)
  | .replyBegin name origin =>
    (b.onServer name fun w => done (m.server.replyBegin origin w)).or
      (b.onClient name fun w => done (m.client.replyBegin w))
  | .replySend name reply => b.onServer name fun w => done (m.server.replySend reply w)
  | .replyReceive name =>
    b.onClient name fun w => (.message (m.client.replyReceive w).1, (m.client.replyReceive w).2)
  | .replyEnd name =>
    (b.onServer name fun w => quiet (m.server.replyEnd w)).or
      (b.onClient name fun w => quiet (m.client.replyEnd w))
  | .send name request => b.onClient name fun w => done (m.client.send request w)
  | .close name =>
    (b.onServer name fun w => quiet (m.server.close w)).or
      (b.onClient name fun w => quiet (m.client.close w))
  | .drop name => drop m name b
  | .receiveFrom server client origin request => receiveFrom m server client origin request b

def perform (m : Medium W S C) (call : EndCall) (b : Bench W S C) : EndAnswer × Bench W S C :=
  (perform? m call b).getD (.noSuchEnd, b)

end Bench

/-- A named queue end waits while a queue is removed: if it waits on that queue its peer is gone, and
otherwise it is interrupted later. An end that need not wait is done before. -/
def Bench.removeDuring (settings : QueueSettings) (name : String) (key : Int32)
    (b : Bench Mailboxes QueueServer QueueClient) :
    EndAnswer × Bench Mailboxes QueueServer QueueClient :=
  let m := Medium.queues settings
  let waitsOn := (b.servers.lookup name).map (·.requests.key) |>.or
    ((b.clients.lookup name).map (·.replies.key))
  let call := if (b.servers.lookup name).isSome then EndCall.receive name else .replyReceive name
  let (answer, b) := b.perform m call
  let world := match b.world.find key with
    | .ok id => (b.world.remove id).2
    | .error _ => b.world
  let answer := match answer with
    | .message (.error .interrupted) =>
      if waitsOn = some key ∧ (b.world.find key).isOk then .message (.error .peerClosed) else answer
    | _ => answer
  (answer, { b with world })

end DiscCatalog
