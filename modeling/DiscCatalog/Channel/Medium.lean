import DiscCatalog.Channel.Loop
import DiscCatalog.Channel.MessageQueue
import DiscCatalog.Channel.NamedPipe

namespace DiscCatalog

/-- A kind of channel: `W` is the world in which its ends live, `S` a server's end, `C` a client's. -/
structure Medium (W S C : Type) where
  openServer : W → Except ChannelFault S × W
  openClient : UInt32 → W → Except ChannelFault C × W
  server : ServerPort (S × W)
  client : ClientPort (C × W)
  /-- Receiving as far as that goes without waiting; none means that the server waits. -/
  poll : S × W → Option (Except ChannelFault Message) × S × W
  inject : List UInt8 → W → W

namespace Medium

variable {V W S C : Type}

def beside (p : Part V W) (E : Type) : Part (E × V) (E × W) where
  get s := (s.1, p.get s.2)
  set t s := (t.1, p.set t.2 s.2)

def within (p : Part V W) (m : Medium W S C) : Medium V S C where
  openServer := p.lift m.openServer
  openClient origin := p.lift (m.openClient origin)
  server := m.server.within (beside p S)
  client := m.client.within (beside p C)
  poll := (beside p S).lift m.poll
  inject bytes v := p.set (m.inject bytes (p.get v)) v

/-- The server's end as it is while the server's wait lasts: where it would wait it is interrupted, and
goes on waiting when it receives again. -/
def waiting (m : Medium W S C) : ServerPort (S × W) where
  receive w :=
    match m.poll w with
    | (some outcome, w) => (outcome, w)
    | (none, w) => (.error .interrupted, w)
  replyBegin := m.server.replyBegin
  replySend := m.server.replySend
  replyEnd := m.server.replyEnd
  close := m.server.close
  backlog := m.server.backlog

/-- A client's end in a world where others act whenever the client waits for them: when it has begun a reply session,
and before it receives. They have `more` replies for it at most. -/
def among (p : Part V W) (act : V → V) (more : V → Nat) (m : Medium W S C) : ClientPort (C × V) :=
  let port := m.client.within (beside p C)
  { port with
    replyBegin := fun w =>
      let (outcome, c, v) := port.replyBegin w
      (outcome, c, act v)
    replyReceive := fun w => port.replyReceive (w.1, act w.2)
    backlog := fun w => port.backlog w + more w.2 }

def loop : Medium LoopLine LoopServer LoopClient where
  openServer l := (.ok {}, l)
  openClient origin l := (.ok { origin }, l)
  server := LoopServer.port
  client := LoopClient.port
  poll := LoopServer.poll
  inject bytes l := { l with requests := l.requests ++ [bytes] }

def pipes (settings : PipeSettings) : Medium Host PipeServer PipeClient where
  openServer := PipeServer.openOn settings
  openClient := PipeClient.openOn settings
  server := PipeServer.port
  client := PipeClient.port
  poll := PipeServer.poll
  inject bytes h :=
    match h.openPath settings.serverPath .write false with
    | (.error _, h) => h
    | (.ok handle, h) => (h.write handle bytes).2.close handle

def queues (settings : QueueSettings) : Medium Mailboxes QueueServer QueueClient where
  openServer := QueueServer.openOn settings
  openClient := QueueClient.openOn settings
  server := QueueServer.port
  client := QueueClient.port
  poll := QueueServer.poll
  inject bytes q :=
    match q.find settings.serverKey with
    | .error _ => q
    | .ok id => (q.send id 1 bytes).2

end Medium

end DiscCatalog
