import DiscCatalog.Channel.Port

namespace DiscCatalog

def commandFailed (cause : String) : String := s!"command failed: {cause}"

namespace Message

def failure (m : Message) (cause : String) : Message :=
  (m.reply .failed).withDiagnostic (commandFailed cause)

def conclusion (m : Message) : Except StoreFault Unit → Message
  | .ok () => m.reply .ok
  | .error f => m.failure f.message

def found (m : Message) (entry : CatalogEntry) : Message := { m.reply .ok with catalog := entry }

def noMore (m : Message) : Message := { m.reply .noMoreResults with catalog := {} }

def cutShort (m : Message) (cause : ChannelFault) : Message :=
  { m with catalog := {} }.failure cause.message

end Message

structure Service (σ : Type) where
  world : σ
  handled : Nat := 0

namespace Server

variable {σ : Type} (store : RecordStore σ) (port : ServerPort σ)

def changeOf : Request → Option Change
  | .createDatabase => some .reset
  | .addCatalog entry => some (.putCatalog entry)
  | .addTrack entry => some (.putTrack entry)
  | .deleteCatalog key => some (.deleteCatalog key)
  | .deleteTrack key number => some (.deleteTrack key number)
  | _ => none

/-- Sends the matches of a search one by one, at most `room` of them. The first message that does not
go through cuts the search short. -/
def stream (m : Message) (query : String) : (room : Nat) → (first : Bool) → σ → σ
  | 0, _, s => s
  | room + 1, first, s =>
    match store.findNext query first s with
    | (none, s) => (port.replySend m.noMore s).2
    | (some entry, s) =>
      match port.replySend (m.found entry) s with
      | (.ok (), s) => stream m query room false s
      | (.error cause, s) => (port.replySend (m.cutShort cause) s).2

def answer (m : Message) (s : σ) : σ :=
  match m.request with
  | .findCatalog query => stream store port m query (store.size s + 1) true s
  | .getCatalog key =>
    (port.replySend { m.reply .ok with catalog := (store.catalog? key s).getD {} } s).2
  | .getTrack key number =>
    (port.replySend { m.reply .ok with track := (store.track? key number s).getD {} } s).2
  | request =>
    match changeOf request with
    | none => s
    | some change =>
      let (outcome, s) := store.change change s
      (port.replySend (m.conclusion outcome) s).2

def dispatch (m : Message) (s : σ) : σ :=
  match port.replyBegin m.origin s with
  | (.error _, s) => s
  | (.ok (), s) => port.replyEnd (answer store port m s)

def reject (origin : UInt32) (cause : FrameFault) (s : σ) : σ :=
  match port.replyBegin origin s with
  | (.error _, s) => s
  | (.ok (), s) =>
    port.replyEnd (port.replySend (.rejection origin (commandFailed cause.message)) s).2

/-- Receives once and deals with what came. Requests that could not be read are no fault of the
server; any other failure to receive is. -/
def handleNext (v : Service σ) : Except ServerFault Unit × Service σ :=
  match port.receive v.world with
  | (.ok m, s) => (.ok (), { world := dispatch store port m s, handled := v.handled + 1 })
  | (.error (.malformed (some origin) cause), s) =>
    (.ok (), { v with world := reject port origin cause s })
  | (.error (.malformed none _), s) | (.error (.shortRead _ _), s) => (.ok (), { v with world := s })
  | (.error f, s) => (.error (.channel f), { v with world := s })

structure Run (σ : Type) where
  outcome : Except ServerFault Unit
  checks : Nat
  service : Service σ

/-- Serves until `stop` says so (it is given the number of times it was asked before) or receiving
fails for another reason than a signal. It receives at most `room` times. -/
def serve (stop : Nat → Bool) : (room : Nat) → (checks : Nat) → Service σ → Run σ
  | room, checks, v =>
    if stop checks then ⟨.ok (), checks + 1, v⟩
    else match room with
    | 0 => ⟨.ok (), checks + 1, v⟩
    | room + 1 =>
      match handleNext store port v with
      | (.ok (), v) | (.error (.channel .interrupted), v) => serve stop room (checks + 1) v
      | (.error f, v) => ⟨.error f, checks + 1, v⟩

def runUntil (stop : Nat → Bool) (v : Service σ) : Run σ :=
  let run := serve store port stop (port.backlog v.world + 1) 0 v
  { run with service := { run.service with world := port.close run.service.world } }

end Server

end DiscCatalog
