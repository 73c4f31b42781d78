import DiscCatalog.Channel.Port

namespace DiscCatalog

structure ScriptItem where
  outcome : Except ChannelFault Message
  refusal : Option ChannelFault := none
  /-- The sends that fail, counted from zero within the answer. -/
  failing : List Nat := []
  failWith : ChannelFault := .peerClosed

inductive ServerEvent where
  | begun (origin : UInt32)
  | sent (m : Message)
  | sendFailed
  | ended
  | closed
deriving DecidableEq

structure ServerScript where
  items : List ScriptItem
  current : Option ScriptItem := none
  sends : Nat := 0
  events : List ServerEvent := []

namespace ServerScript

def note (e : ServerEvent) (s : ServerScript) : ServerScript := { s with events := s.events ++ [e] }

def receive (s : ServerScript) : Except ChannelFault Message × ServerScript :=
  match s.items with
  | [] => (.error .closed, s)
  | item :: items => (item.outcome, { s with items, current := some item, sends := 0 })

def replyBegin (origin : UInt32) (s : ServerScript) : Except ChannelFault Unit × ServerScript :=
  match s.current.bind (·.refusal) with
  | some f => (.error f, s)
  | none => (.ok (), s.note (.begun origin))

def replySend (m : Message) (s : ServerScript) : Except ChannelFault Unit × ServerScript :=
  let counted := { s with sends := s.sends + 1 }
  match m.encode, s.current with
  | .error f, _ => (.error (.frame f), counted)
  | .ok _, none => (.ok (), counted.note (.sent m))
  | .ok _, some item =>
    if s.sends ∈ item.failing then (.error item.failWith, counted.note .sendFailed)
    else (.ok (), counted.note (.sent m))

def port : ServerPort ServerScript where
  receive := receive
  replyBegin := replyBegin
  replySend := replySend
  replyEnd := note .ended
  close := note .closed
  backlog s := s.items.length

end ServerScript

/-- A client's end that plays a script. Each send and each beginning of a session takes one item of
its list of failures, if any is left. -/
structure ClientScript where
  origin : UInt32
  replies : List (Except ChannelFault Message) := []
  sendFaults : List (Option ChannelFault) := []
  beginFaults : List (Option ChannelFault) := []
  sent : List Message := []
  begun : Nat := 0
  ended : Nat := 0
  closed : Nat := 0

namespace ClientScript

def send (m : Message) (s : ClientScript) : Except ChannelFault Unit × ClientScript :=
  match m.encode with
  | .error f => (.error (.frame f), s)
  | .ok _ =>
    match s.sendFaults with
    | some f :: later => (.error f, { s with sendFaults := later })
    | _ => (.ok (), { s with sendFaults := s.sendFaults.drop 1, sent := s.sent ++ [m] })

def replyBegin (s : ClientScript) : Except ChannelFault Unit × ClientScript :=
  let counted := { s with begun := s.begun + 1, beginFaults := s.beginFaults.drop 1 }
  match s.beginFaults with
  | some f :: _ => (.error f, counted)
  | _ => (.ok (), counted)

def replyReceive (s : ClientScript) : Except ChannelFault Message × ClientScript :=
  match s.replies with
  | [] => (.error .peerClosed, s)
  | reply :: replies => (reply, { s with replies })

def port : ClientPort ClientScript where
  origin := origin
  send := send
  replyBegin := replyBegin
  replyReceive := replyReceive
  replyEnd s := { s with ended := s.ended + 1 }
  close s := { s with closed := s.closed + 1 }
  backlog s := s.replies.length

end ClientScript

end DiscCatalog
