import DiscCatalog.Channel.Bench
import DiscCatalog.Client.Call
import DiscCatalog.Repository
import DiscCatalog.Server.Turns

namespace DiscCatalog

structure Machine where
  host : Host
  boxes : Mailboxes := {}
  line : LoopLine := {}
deriving DecidableEq

namespace Machine

def hostPart : Part Machine Host := ⟨(·.host), fun host m => { m with host }⟩
def boxPart : Part Machine Mailboxes := ⟨(·.boxes), fun boxes m => { m with boxes }⟩
def linePart : Part Machine LoopLine := ⟨(·.line), fun line m => { m with line }⟩

/-- A machine on which readers keep up with writers, so that pipes and queues never fill. -/
def unhurried (host : Host) : Machine where
  host := { host with pipePages := 1 <<< 40 }
  boxes := { capacity := 1 <<< 40 }

end Machine

structure Site (S : Type) where
  machine : Machine
  repository : Repository
  server : S

namespace Site

variable {S : Type}

def storePart : Part (Site S) (Repository × Host) where
  get s := (s.repository, s.machine.host)
  set r s := { s with repository := r.1, machine := { s.machine with host := r.2 } }

def serverPart : Part (Site S) (S × Machine) where
  get s := (s.server, s.machine)
  set w s := { s with server := w.1, machine := w.2 }

def store : RecordStore (Site S) := Repository.recordStore.within storePart

end Site

/-- A server process that runs on a machine: its service, where it waits if that is not for a request, and the fault that ended
it, if one did. -/
structure Hall (S : Type) where
  service : Service (Site S)
  paused : Option Server.Pause := none
  ended : Option ServerFault := none

namespace Hall

variable {S C : Type}

def machine (hall : Hall S) : Machine := hall.service.world.machine

def machinePart : Part (Hall S) Machine where
  get hall := hall.service.world.machine
  set machine hall :=
    { hall with service := { hall.service with world := { hall.service.world with machine } } }

def port (m : Medium Machine S C) : ServerPort (Site S) := m.waiting.within Site.serverPart

def close (m : Medium Machine S C) (hall : Hall S) : Hall S :=
  { hall with service := { hall.service with world := (port m).close hall.service.world } }

def leave (m : Medium Machine S C) (hall : Hall S) : Machine :=
  let site := (close m hall).service.world
  { site.machine with host := site.repository.close site.machine.host }

/-- Goes on until the server has to wait for somebody else, with at most `room` turns. -/
def handle (m : Medium Machine S C) : (room : Nat) → Hall S → Hall S
  | 0, hall => hall
  | room + 1, hall =>
    if hall.ended.isSome then hall
    else match Server.turn Site.store (port m) hall.paused hall.service with
    | (.ok none, service) => handle m room { hall with service, paused := none }
    | (.ok paused, service) => { hall with service, paused }
    | (.error (.channel .interrupted), service) => { hall with service }
    | (.error f, service) => close m { service, ended := some f }

def settle (m : Medium Machine S C) (hall : Hall S) : Hall S :=
  handle m ((port m).backlog hall.service.world + 3) hall

/-- The server does not send more replies than this for all that it has taken and that waits for it. -/
def outstanding (m : Medium Machine S C) (hall : Hall S) : Nat :=
  let requests := (port m).backlog hall.service.world + 1
  (hall.paused.bind (·.unsent)).elim 0 (·.most) + requests * (Site.store.size hall.service.world + requests + 1)

/-- Lets the server handle all that waits for it on a machine; a server that stops there gives back what
it holds. -/
def attend (m : Medium Machine S C) (machine : Machine) (hall : Hall S) : Hall S × Machine :=
  let hall := (machinePart.set machine hall).settle m
  (hall, if hall.ended.isSome then hall.leave m else hall.machine)

def clientPort (m : Medium Machine S C) : ClientPort (C × Hall S) := m.among machinePart (settle m) (outstanding m)

def start (m : Medium Machine S C) (repository : Repository) (machine : Machine) :
    Except ServerFault (Hall S) × Machine :=
  match m.openServer machine with
  | (.error f, machine) => (.error (.channel f), machine)
  | (.ok server, machine) => (.ok (settle m { service := { world := { machine, repository, server } } }), machine)

end Hall

structure Member (C : Type) where
  connection : C
  held : Option Cursor := none
  cursors : List Cursor := []

structure Session (S C : Type) where
  hall : Hall S
  members : List (String × Member C) := []

inductive SessionStep where
  | openClient (name : String) (origin : UInt32)
  | call (name : String) (c : ClientCall)
  | drop (name : String)
  | inject (bytes : List UInt8)
deriving DecidableEq

inductive StepAnswer where
  | opened (outcome : Except ClientFault UInt32)
  | answered (answer : ClientAnswer)
  | dropped (existed : Bool)
  | injected
  | noClient

namespace Session

variable {S C : Type}

def release (m : Medium Machine S C) (old : Option (Member C)) (hall : Hall S) : Hall S :=
  match old with
  | none => hall
  | some member => ((Hall.clientPort m).close (member.connection, hall)).2

def callAs (m : Medium Machine S C) (spoolRoom : Option SystemFault) (member : Member C) (c : ClientCall)
    (hall : Hall S) : ClientAnswer × Member C × Hall S :=
  let desk : Desk (C × Hall S) := {
    client := { world := (member.connection, hall), spoolRoom, held := member.held }
    cursors := member.cursors }
  let (answer, desk) := desk.perform (Hall.clientPort m) c
  (answer, { connection := desk.client.world.1, held := desk.client.held, cursors := desk.cursors },
    desk.client.world.2)

def step (m : Medium Machine S C) (spoolRoom : Option SystemFault) (s : Session S C) :
    SessionStep → StepAnswer × Session S C
  | .openClient name origin =>
    match (Hall.machinePart.lift (m.openClient origin)) s.hall with
    | (.error f, hall) => (.opened (.error (.channel f)), { s with hall })
    | (.ok connection, hall) =>
      let hall := release m (s.members.lookup name) hall
      (.opened (.ok origin), { hall, members := assign name { connection } s.members })
  | .call name c =>
    match s.members.lookup name with
    | none => (.noClient, s)
    | some member =>
      let (answer, member, hall) := callAs m spoolRoom member c s.hall
      (.answered answer, { hall, members := assign name member s.members })
  | .drop name =>
    let old := s.members.lookup name
    (.dropped old.isSome, { hall := release m old s.hall, members := unassign name s.members })
  | .inject bytes =>
    (.injected, { s with hall := Hall.machinePart.set (m.inject bytes (Hall.machinePart.get s.hall)) s.hall })

def advance (m : Medium Machine S C) (spoolRoom : Option SystemFault) (s : Session S C)
    (step : SessionStep) : StepAnswer × Session S C :=
  let (answer, s) := s.step m spoolRoom step
  (answer, { s with hall := s.hall.settle m })

def run (m : Medium Machine S C) (spoolRoom : Option SystemFault) :
    Session S C → List SessionStep → List StepAnswer × Session S C
  | s, [] => ([], s)
  | s, step :: steps =>
    let (answer, s) := s.advance m spoolRoom step
    let (answers, s) := run m spoolRoom s steps
    (answer :: answers, s)

end Session

end DiscCatalog
