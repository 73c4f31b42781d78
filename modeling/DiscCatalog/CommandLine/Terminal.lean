import DiscCatalog.CommandLine.Arguments
import DiscCatalog.CommandLine.Errand
import DiscCatalog.Session

namespace DiscCatalog

/-- What a command leaves behind: its exit code, its output and its last word if it fails. Lines of a log are left out, and so
is what the argument parser prints: its help, and how it was misused. -/
structure Outcome where
  exit : Nat := 0
  output : String := ""
  complaint : String := ""
deriving DecidableEq

namespace Outcome

def ofResult : Except Failure String → Outcome
  | .ok output => { output }
  | .error f => { exit := 1, complaint := f.message }

def ofDismissal : Dismissal → Outcome
  | .misuse => { exit := 2 }
  | .help => {}
  | .version => { output := "0.2.1\n" }

end Outcome

/-- A running server, with its own view of the machine as it last saw it. -/
inductive RunningServer where
  | pipes (settings : PipeSettings) (hall : Hall PipeServer)
  | queues (settings : QueueSettings) (hall : Hall QueueServer)

namespace RunningServer

def pipeMedium (s : PipeSettings) : Medium Machine PipeServer PipeClient :=
  (Medium.pipes s).within Machine.hostPart

def queueMedium (s : QueueSettings) : Medium Machine QueueServer QueueClient :=
  (Medium.queues s).within Machine.boxPart

def settle (machine : Machine) : RunningServer → RunningServer × Machine
  | pipes s hall =>
    let (hall, machine) := hall.attend (pipeMedium s) machine
    (pipes s hall, machine)
  | queues s hall =>
    let (hall, machine) := hall.attend (queueMedium s) machine
    (queues s hall, machine)

def outstanding : RunningServer → Nat
  | pipes s hall => hall.outstanding (pipeMedium s)
  | queues s hall => hall.outstanding (queueMedium s)

def ended : RunningServer → Option ServerFault
  | pipes _ hall => hall.ended
  | queues _ hall => hall.ended

def stop (machine : Machine) : RunningServer → Machine
  | pipes s hall => (Hall.machinePart.set machine hall).leave (pipeMedium s)
  | queues s hall => (Hall.machinePart.set machine hall).leave (queueMedium s)

end RunningServer

structure Terminal where
  machine : Machine
  servers : List RunningServer := []
  commands : Nat := 0

namespace Terminal

variable {S C : Type}

def machinePart : Part Terminal Machine := ⟨(·.machine), fun machine t => { t with machine }⟩

def fresh (home : Location) : Terminal := { machine := .unhurried (.fresh home) }

def settleAll : List RunningServer → Machine → List RunningServer × Machine
  | [], machine => ([], machine)
  | server :: rest, machine =>
    let (server, machine) := server.settle machine
    let (rest, machine) := settleAll rest machine
    (server :: rest, machine)

def settle (t : Terminal) : Terminal :=
  let (servers, machine) := settleAll t.servers t.machine
  { t with servers, machine }

def outstanding (t : Terminal) : Nat := t.servers.foldl (fun most server => most + server.outstanding) 0

def settingsOf (e : Environment) (i : Invocation) (t : Terminal) : Except Failure Settings :=
  match i.settingsFile with
  | none => .ok (i.overlay (Settings.find e t.machine.host))
  | some path =>
    match Settings.load e path t.machine.host with
    | .ok s => .ok (i.overlay s)
    | .error f => .error ⟨s!"Failed to load config from {path}", f.message :: f.causes⟩

def process (t : Terminal) : Nat := t.commands + 1

def send (e : Environment) (format : Format) (errand : Errand) (m : Medium Machine S C) (t : Terminal) :
    Except Failure String × Terminal :=
  match machinePart.lift (m.openClient (UInt32.ofNat t.process)) t with
  | (.error f, t) => (.error (.ofClient "Could not connect to server" (.channel f)), t)
  | (.ok connection, t) =>
    let port := m.among machinePart settle outstanding
    let spoolRoom := (t.machine.host.roomFault? e.temporaryDirectory).map SystemFault.os
    let (shown, c) := errand.perform port format { world := (connection, t), spoolRoom }
    (shown, (Client.close port c).world.2)

def start (directory : String) (new : Bool) (m : Medium Machine S C) (running : Hall S → RunningServer)
    (t : Terminal) : Except Failure String × Terminal :=
  let failure (f : ServerFault) : Except Failure String := .error (.ofServer "Could not initialize server" f)
  match (Machine.hostPart.lift (Archive.openIn directory t.process new)) t.machine with
  | (.error f, machine) => (failure (.store f), { t with machine })
  | (.ok archive, machine) =>
    match Hall.start m (.archive archive) machine with
    | (.error f, machine) => (failure f, { t with machine := { machine with host := archive.close machine.host } })
    | (.ok hall, _) => (.ok "", { t with machine := hall.machine, servers := running hall :: t.servers })

def carryOut (e : Environment) (i : Invocation) (s : Settings) (t : Terminal) : Except Failure String × Terminal :=
  match i.command, s.kind with
  | .serve new _, .pipe => t.start s.dataDirectory new (RunningServer.pipeMedium s.pipe) (.pipes s.pipe)
  | .serve new _, .queue => t.start s.dataDirectory new (RunningServer.queueMedium s.queue) (.queues s.queue)
  | .errand errand, .pipe => t.send e i.format errand (RunningServer.pipeMedium s.pipe)
  | .errand errand, .queue => t.send e i.format errand (RunningServer.queueMedium s.queue)

def run (e : Environment) (args : List String) (t : Terminal) : Outcome × Terminal :=
  match Invocation.ofArguments args with
  | .error d => (.ofDismissal d, t)
  | .ok i =>
    match t.settingsOf e i with
    | .error f => (.ofResult (.error f), t)
    | .ok s =>
      let (shown, t) := t.carryOut e i s
      (.ofResult shown, { t.settle with commands := t.commands + 1 })

def stop (t : Terminal) : Outcome × Terminal :=
  match t.servers with
  | [] => ({}, t)
  | server :: servers =>
    let t := { t with machine := server.stop t.machine, servers }
    match server.ended with
    | none => ({}, t)
    | some f => (.ofResult (.error (.ofServer "Server stopped on a fatal error" f)), t)

end Terminal

end DiscCatalog
