import DiscCatalog.Server

namespace DiscCatalog

namespace Server

inductive Taken where
  | request (m : Message)
  | unreadable (origin : UInt32) (cause : FrameFault)
deriving DecidableEq

namespace Taken

def origin : Taken → UInt32
  | request m => m.origin
  | unreadable origin _ => origin

def count : Taken → Nat
  | request _ => 1
  | unreadable _ _ => 0

end Taken

/-- The next message of an answer: the last one, or a match of a search, which looks for up to `room` more. -/
inductive Unsent where
  | last (reply : Message)
  | found (m : Message) (query : String) (entry : CatalogEntry) (room : Nat)
deriving DecidableEq

namespace Unsent

def reply : Unsent → Message
  | last reply => reply
  | found m _ entry _ => m.found entry

def most : Unsent → Nat
  | last _ => 1
  | found _ _ _ room => room + 2

end Unsent

variable {σ : Type} (store : RecordStore σ) (port : ServerPort σ)

def seek (m : Message) (query : String) : (room : Nat) → (first : Bool) → σ → Option Unsent × σ
  | 0, _, s => (none, s)
  | room + 1, first, s =>
    match store.findNext query first s with
    | (none, s) => (some (.last m.noMore), s)
    | (some entry, s) => (some (.found m query entry room), s)

def carryOut (m : Message) (s : σ) : Option Unsent × σ :=
  match m.request with
  | .findCatalog query => seek store m query (store.size s + 1) true s
  | .getCatalog key => (some (.last { m.reply .ok with catalog := (store.catalog? key s).getD {} }), s)
  | .getTrack key number => (some (.last { m.reply .ok with track := (store.track? key number s).getD {} }), s)
  | request =>
    match changeOf request with
    | none => (none, s)
    | some change =>
      let (outcome, s) := store.change change s
      (some (.last (m.conclusion outcome)), s)

def prepare : Taken → σ → Option Unsent × σ
  | .request m, s => carryOut store m s
  | .unreadable origin cause, s => (some (.last (.rejection origin (commandFailed cause.message))), s)

def onward (u : Unsent) (outcome : Except ChannelFault Unit) (s : σ) : Option Unsent × σ :=
  match u, outcome with
  | .last _, _ => (none, s)
  | .found m query _ room, .ok () => seek store m query room false s
  | .found m _ _ _, .error cause => (some (.last (m.cutShort cause)), s)

theorem most_seek (m : Message) (query : String) (room : Nat) (first : Bool) (s : σ) :
    (seek store m query room first s).1.elim 0 (·.most) ≤ room + 1 := by
  cases room with
  | zero => exact Nat.zero_le _
  | succ room =>
    rw [seek]
    split
    · exact Nat.succ_le_succ (Nat.zero_le _)
    · exact Nat.le_refl _

theorem most_onward (u : Unsent) (outcome : Except ChannelFault Unit) (s : σ) :
    (onward store u outcome s).1.elim 0 (·.most) < u.most := by
  cases u with
  | last reply => exact Nat.one_pos
  | found m query entry room =>
    cases outcome with
    | ok => exact Nat.lt_succ_of_le (most_seek store m query room false s)
    | error cause => exact Nat.succ_lt_succ (Nat.succ_pos room)

/-- Sends an answer and ends its session, or stops at a message that the server would have to wait with. -/
def send (u : Option Unsent) (s : σ) : Option Unsent × σ :=
  match u with
  | none => (none, port.replyEnd s)
  | some v =>
    match port.replySend v.reply s with
    | (.error .interrupted, s) => (some v, s)
    | (outcome, s) => send (onward store v outcome s).1 (onward store v outcome s).2
termination_by u.elim 0 (·.most)
decreasing_by exact most_onward store v outcome s

/-- A server that waits in the midst of its work: until a client listens, or for room for the next message to it. -/
structure Pause where
  taken : Taken
  unsent : Option Unsent := none
deriving DecidableEq

def respond (t : Taken) (u : Option Unsent) (s : σ) : Option Pause × σ :=
  let (left, s) := send store port u s
  (left.map fun v => ⟨t, some v⟩, s)

def attempt (t : Taken) (s : σ) : Option Pause × σ :=
  match port.replyBegin t.origin s with
  | (.error .interrupted, s) => (some ⟨t, none⟩, s)
  | (.error _, s) => (none, s)
  | (.ok (), s) =>
    let (u, s) := prepare store t s
    respond store port t u s

def account (t : Taken) (handled : Nat) (left : Option Pause × σ) : Except ServerFault (Option Pause) × Service σ :=
  (.ok left.1, { world := left.2, handled := if left.1.isSome then handled else handled + t.count })

def turn (paused : Option Pause) (v : Service σ) : Except ServerFault (Option Pause) × Service σ :=
  match paused with
  | some ⟨t, none⟩ => account t v.handled (attempt store port t v.world)
  | some ⟨t, some u⟩ => account t v.handled (respond store port t (some u) v.world)
  | none =>
    match port.receive v.world with
    | (.ok m, s) => account (.request m) v.handled (attempt store port (.request m) s)
    | (.error (.malformed (some origin) cause), s) =>
      account (.unreadable origin cause) v.handled (attempt store port (.unreadable origin cause) s)
    | (.error (.malformed none _), s) | (.error (.shortRead _ _), s) => (.ok none, { v with world := s })
    | (.error f, s) => (.error (.channel f), { v with world := s })

end Server

end DiscCatalog
