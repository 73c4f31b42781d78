import DiscCatalog.Fault
import DiscCatalog.Frame
import DiscCatalog.Store.Interface

namespace DiscCatalog

structure ServerPort (σ : Type) where
  receive : σ → Except ChannelFault Message × σ
  replyBegin : UInt32 → σ → Except ChannelFault Unit × σ
  replySend : Message → σ → Except ChannelFault Unit × σ
  replyEnd : σ → σ
  close : σ → σ
  /-- How often `receive` can still give something other than a final fault. -/
  backlog : σ → Nat

structure ClientPort (σ : Type) where
  origin : σ → UInt32
  send : Message → σ → Except ChannelFault Unit × σ
  replyBegin : σ → Except ChannelFault Unit × σ
  replyReceive : σ → Except ChannelFault Message × σ
  replyEnd : σ → σ
  close : σ → σ
  /-- How many replies can still be received before a fault. -/
  backlog : σ → Nat

namespace ServerPort

def within {σ τ : Type} (p : Part σ τ) (port : ServerPort τ) : ServerPort σ where
  receive := p.lift port.receive
  replyBegin origin := p.lift (port.replyBegin origin)
  replySend m := p.lift (port.replySend m)
  replyEnd s := p.set (port.replyEnd (p.get s)) s
  close s := p.set (port.close (p.get s)) s
  backlog s := port.backlog (p.get s)

end ServerPort

def ClientPort.within {σ τ : Type} (p : Part σ τ) (port : ClientPort τ) : ClientPort σ where
  origin s := port.origin (p.get s)
  send m := p.lift (port.send m)
  replyBegin := p.lift port.replyBegin
  replyReceive := p.lift port.replyReceive
  replyEnd s := p.set (port.replyEnd (p.get s)) s
  close s := p.set (port.close (p.get s)) s
  backlog s := port.backlog (p.get s)

/-- The message in the bytes of one read. A read of another size than a frame's is reported as such; a
frame that cannot be read is reported with its origin, as far as that is there. -/
def messageOfRead (bytes : List UInt8) : Except ChannelFault Message :=
  if bytes.length ≠ Frame.size then .error (.shortRead Frame.size bytes.length)
  else match Message.decode bytes with
    | .ok m => .ok m
    | .error cause => .error (.malformed (Frame.peekOrigin bytes) cause)

def stampedFrame (origin : UInt32) (m : Message) : Except ChannelFault (List UInt8) :=
  match m.encode with
  | .ok frame => .ok (Frame.stamp frame origin)
  | .error cause => .error (.frame cause)

def checkWritten (n : Nat) : Except ChannelFault Unit :=
  if n = Frame.size then .ok () else .error (.shortWrite Frame.size n)

end DiscCatalog
