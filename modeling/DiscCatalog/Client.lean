import DiscCatalog.Channel.Port
import DiscCatalog.Client.Cursor

namespace DiscCatalog

/-- A client's state: that of its channel, the fault of making a spool, if there is one, and the cursor
behind `findCatalog`. -/
structure ClientState (σ : Type) where
  world : σ
  spoolRoom : Option SystemFault := none
  held : Option Cursor := none

namespace Client

variable {σ : Type} (port : ClientPort σ)

def unexpected (asked reply : Message) : ClientFault :=
  .unexpectedReply s!"{reply.operation.name} reply to a {asked.operation.name} request"

def single (asked reply : Message) : Except ClientFault Message :=
  if reply.operation ≠ asked.operation then .error (unexpected asked reply)
  else match reply.status with
    | .ok => .ok reply
    | .failed => .error (.rejected reply.diagnostic)
    | .noMoreResults =>
      .error (.unexpectedReply s!"end of results in reply to {asked.operation.name}")

def exchange (request : Request) (c : ClientState σ) : Except ClientFault Message × ClientState σ :=
  let asked := Message.ofRequest (port.origin c.world) request
  match port.send asked c.world with
  | (.error f, s) => (.error (.channel f), { c with world := s })
  | (.ok (), s) =>
    let (reply, s) : Except ChannelFault Message × σ :=
      match port.replyBegin s with
      | (.error f, s) => (.error f, s)
      | (.ok (), s) => port.replyReceive s
    let c := { c with world := port.replyEnd s }
    match reply with
    | .error f => (.error (.channel f), c)
    | .ok reply => (single asked reply, c)

abbrev Ending := Except ClientFault (Option String)

/-- Reads the replies to a search up to the last one and spools their entries. If it would receive more than `room` times,
as if it read for ever, a signal interrupts it. -/
def drain (asked : Message) (spoolRoom : Option SystemFault) :
    (room : Nat) → Spool → σ → (Ending × Spool) × σ
  | 0, spool, s => ((.error (.channel .interrupted), spool), s)
  | room + 1, spool, s =>
    match port.replyReceive s with
    | (.error f, s) => ((.error (.channel f), spool), s)
    | (.ok reply, s) =>
      if reply.operation ≠ asked.operation then ((.error (unexpected asked reply), spool), s)
      else match reply.status with
        | .noMoreResults => ((.ok none, spool), s)
        | .failed => ((.ok (some reply.diagnostic), spool), s)
        | .ok => drain asked spoolRoom room (spool.push spoolRoom reply.catalog) s

def search (query : String) (c : ClientState σ) : Except ClientFault Cursor × ClientState σ :=
  let asked := Message.ofRequest (port.origin c.world) (.findCatalog query)
  match port.send asked c.world with
  | (.error f, s) => (.error (.channel f), { c with world := s })
  | (.ok (), s) =>
    match port.replyBegin s with
    | (.error f, s) => (.error (.channel f), { c with world := port.replyEnd s })
    | (.ok (), s) =>
      let ((ending, spool), s) := drain port asked c.spoolRoom (port.backlog s + 1) {} s
      let c := { c with world := port.replyEnd s }
      match ending with
      | .error f => (.error f, c)
      | .ok truncated => (spool.finish truncated, c)

/-- Steps through a search one entry per call. A new search runs `query` and lets the held cursor go;
otherwise the held cursor goes on, whatever the query. -/
def findCatalog (query : String) (newSearch : Bool) (c : ClientState σ) :
    Except ClientFault (Option CatalogEntry) × ClientState σ :=
  let (started, c) : Except ClientFault Unit × ClientState σ :=
    if newSearch then
      match search port query { c with held := none } with
      | (.ok cursor, c) => (.ok (), { c with held := some cursor })
      | (.error f, c) => (.error f, c)
    else (.ok (), c)
  match started, c.held with
  | .error f, _ => (.error f, c)
  | .ok (), none => (.ok none, c)
  | .ok (), some cursor =>
    match cursor.next with
    | (.ok (some entry), cursor) =>
      (.ok (some entry), { c with held := if cursor.isExhausted then none else some cursor })
    | (answer, _) => (answer, { c with held := none })

def createDatabase (c : ClientState σ) : Except ClientFault Unit × ClientState σ :=
  let (reply, c) := exchange port .createDatabase c
  (reply.map fun _ => (), c)

def getCatalog (key : String) (c : ClientState σ) :
    Except ClientFault (Option CatalogEntry) × ClientState σ :=
  let (reply, c) := exchange port (.getCatalog key) c
  (reply.map (·.catalog.present?), c)

def getTrack (key : String) (number : Int32) (c : ClientState σ) :
    Except ClientFault (Option TrackEntry) × ClientState σ :=
  let (reply, c) := exchange port (.getTrack key number) c
  (reply.map (·.track.present?), c)

def addCatalog (entry : CatalogEntry) (c : ClientState σ) : Except ClientFault Unit × ClientState σ :=
  let (reply, c) := exchange port (.addCatalog entry) c
  (reply.map fun _ => (), c)

def addTrack (entry : TrackEntry) (c : ClientState σ) : Except ClientFault Unit × ClientState σ :=
  let (reply, c) := exchange port (.addTrack entry) c
  (reply.map fun _ => (), c)

def deleteCatalog (key : String) (c : ClientState σ) : Except ClientFault Unit × ClientState σ :=
  let (reply, c) := exchange port (.deleteCatalog key) c
  (reply.map fun _ => (), c)

def deleteTrack (key : String) (number : Int32) (c : ClientState σ) :
    Except ClientFault Unit × ClientState σ :=
  let (reply, c) := exchange port (.deleteTrack key number) c
  (reply.map fun _ => (), c)

def close (c : ClientState σ) : ClientState σ := { c with world := port.close c.world, held := none }

end Client

end DiscCatalog
