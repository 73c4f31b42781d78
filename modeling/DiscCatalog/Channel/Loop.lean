import DiscCatalog.Channel.Port

namespace DiscCatalog

structure LoopLine where
  requests : List (List UInt8) := []
  /-- The frames of replies, each with the origin that it is for. -/
  replies : List (UInt32 × List UInt8) := []
  closed : Bool := false
deriving DecidableEq, Inhabited

structure LoopServer where
  answering : Option UInt32 := none
deriving DecidableEq, Inhabited

namespace LoopServer

def poll : LoopServer × LoopLine → Option (Except ChannelFault Message) × LoopServer × LoopLine
  | (s, l) =>
    match l.closed, l.requests with
    | true, _ => (some (.error .closed), s, l)
    | false, [] => (none, s, l)
    | false, bytes :: requests => (some (messageOfRead bytes), s, { l with requests })

def receive (w : LoopServer × LoopLine) : Except ChannelFault Message × LoopServer × LoopLine :=
  match poll w with
  | (some outcome, w) => (outcome, w)
  | (none, w) => (.error .interrupted, w)

def replyBegin (origin : UInt32) : LoopServer × LoopLine → Except ChannelFault Unit × LoopServer × LoopLine
  | (s, l) => if l.closed then (.error .closed, s, l) else (.ok (), ⟨some origin⟩, l)

def replySend (m : Message) : LoopServer × LoopLine → Except ChannelFault Unit × LoopServer × LoopLine
  | (s, l) =>
    match s.answering, m.encode with
    | none, _ => (.error .noReplyChannel, s, l)
    | _, .error f => (.error (.frame f), s, l)
    | some origin, .ok frame => (.ok (), s, { l with replies := l.replies ++ [(origin, frame)] })

def port : ServerPort (LoopServer × LoopLine) where
  receive := receive
  replyBegin := replyBegin
  replySend := replySend
  replyEnd w := (⟨none⟩, w.2)
  close w := (⟨none⟩, { w.2 with closed := true })
  backlog w := w.2.requests.length

end LoopServer

structure LoopClient where
  origin : UInt32
  closed : Bool := false
deriving DecidableEq, Inhabited

namespace LoopClient

def send (m : Message) : LoopClient × LoopLine → Except ChannelFault Unit × LoopClient × LoopLine
  | (c, l) =>
    if c.closed ∨ l.closed then (.error .closed, c, l)
    else match stampedFrame c.origin m with
    | .error f => (.error f, c, l)
    | .ok frame => (.ok (), c, { l with requests := l.requests ++ [frame] })

def replyBegin : LoopClient × LoopLine → Except ChannelFault Unit × LoopClient × LoopLine
  | (c, l) => (if c.closed then .error .closed else .ok (), c, l)

def replyReceive : LoopClient × LoopLine → Except ChannelFault Message × LoopClient × LoopLine
  | (c, l) =>
    match l.replies.find? (·.1 = c.origin) with
    | none => (.error .peerClosed, c, l)
    | some (_, frame) =>
      (messageOfRead frame, c, { l with replies := l.replies.eraseP (·.1 = c.origin) })

def port : ClientPort (LoopClient × LoopLine) where
  origin w := w.1.origin
  send := send
  replyBegin := replyBegin
  replyReceive := replyReceive
  replyEnd w := w
  close w := ({ w.1 with closed := true }, w.2)
  backlog w := w.2.replies.length

end LoopClient

end DiscCatalog
