import DiscCatalog.Session
import DiscCatalog.Proofs.Client.Spooled
import DiscCatalog.Proofs.Server.Carried
import DiscCatalog.Proofs.Server.Encoding
import DiscCatalog.Proofs.Server.Turns

namespace DiscCatalog

theorem messageOfRead_frame {m : Message} (h : m.Encodes) : messageOfRead m.frame = .ok m := by
  unfold messageOfRead
  rw [if_neg (fun hne => hne (Message.length_frame h)), Message.decode_frame h]

theorem stampedFrame_of_misfit {m : Message} {fault : FrameFault} (origin : UInt32)
    (h : m.misfit? = some fault) : stampedFrame origin m = .error (.frame fault) := by
  rw [stampedFrame, Message.encode_eq, h]

theorem stampedFrame_of_encodes {m : Message} (h : m.Encodes) : stampedFrame m.origin m = .ok m.frame := by
  rw [stampedFrame, Message.encode_of_encodes h]
  exact congrArg Except.ok (Message.stamp_frame m m.origin)

namespace LoopServer

/-- What a reply leaves on the line. -/
def posted (origin : UInt32) (replies : List Message) : List (UInt32 × List UInt8) :=
  replies.map fun r => (origin, r.frame)

theorem posted_append (origin : UInt32) (replies more : List Message) :
    posted origin (replies ++ more) = posted origin replies ++ posted origin more := List.map_append

theorem deliver_port (m : Message) {replies : List Message} (encode : ∀ r ∈ replies, r.Encodes)
    (origin : UInt32) (line : LoopLine) :
    Server.deliver port m replies (⟨some origin⟩, line) =
      (⟨some origin⟩, { line with replies := line.replies ++ posted origin replies }) := by
  induction replies generalizing line with
  | nil => simp [Server.deliver, posted]
  | cons r rest ih =>
    have sent : port.replySend r (⟨some origin⟩, line) =
        (.ok (), ⟨some origin⟩, { line with replies := line.replies ++ [(origin, r.frame)] }) := by
      simp only [port, replySend, Message.encode_of_encodes (encode r List.mem_cons_self)]
    cases rest with
    | nil => rw [Server.deliver, sent]; rfl
    | cons next rest =>
      rw [Server.deliver, sent]
      have later := ih (fun x hx => encode x (List.mem_cons_of_mem _ hx))
        { line with replies := line.replies ++ [(origin, r.frame)] }
      simpa only [posted, List.map_cons, List.append_assoc, List.singleton_append] using later

theorem handleNext_port {m : Message} {tables : Store} (encodes : m.Encodes) (rows : tables.Encodes)
    (server : LoopServer) (replies : List (UInt32 × List UInt8)) (handled : Nat) :
    ∃ scan, Server.handleNext (Server.memoryBeside _) (Server.besideMemory port)
        ⟨(tables, server, { requests := [m.frame], replies }), handled⟩ =
      (.ok (), ⟨({ Server.storeAfter m tables with scan }, ⟨none⟩,
        { replies := replies ++ posted m.origin (Server.repliesTo m tables) }), handled + 1⟩) := by
  have received : (Server.besideMemory port).receive (tables, server, { requests := [m.frame], replies }) =
      (.ok m, tables, server, { replies }) := by
    simp only [Server.besideMemory, ServerPort.within, Part.lift, port, receive, poll, messageOfRead_frame encodes]
  obtain ⟨scan, answered⟩ := Server.answer_eq port m tables (⟨some m.origin⟩, { replies })
  rw [deliver_port m ((Server.repliesTo_encode_iff rows).2 encodes.echoes)] at answered
  have begun : (Server.besideMemory port).replyBegin m.origin (tables, server, { replies }) =
      (.ok (), tables, ⟨some m.origin⟩, { replies }) := rfl
  refine ⟨scan, ?_⟩
  rw [Server.handleNext_message received, Server.dispatch_begun begun, answered]
  rfl

end LoopServer

namespace Hall

abbrev loop : Medium Machine LoopServer LoopClient := Medium.loop.within Machine.linePart

def loopSite (host : Host) (boxes : Mailboxes) (s : Store × LoopServer × LoopLine) : Site LoopServer where
  machine := { host, boxes, line := s.2.2 }
  repository := .memory s.1
  server := s.2.1

theorem carries_loopSite (host : Host) (boxes : Mailboxes) :
    Server.Carries (loopSite host boxes) (Server.memoryBeside _) (Server.besideMemory LoopServer.port)
      Site.store (port loop) where
  catalog? _ _ := rfl
  track? _ _ _ := rfl
  change c s := by
    change Site.storePart.lift (Repository.change c) (loopSite host boxes s) = _
    simp only [Part.lift, Site.storePart, loopSite, Repository.change, Server.memoryBeside,
      RecordStore.within, RecordStore.memory]
    cases s.1.apply c <;> rfl
  findNext _ _ _ := rfl
  size _ := rfl
  receive s := by
    obtain ⟨tables, server, requests, replies, closed⟩ := s
    cases closed with
    | true => rfl
    | false => cases requests <;> rfl
  replyBegin _ _ := rfl
  replySend _ _ := rfl
  replyEnd _ := rfl

def overLoop (host : Host) (boxes : Mailboxes) (tables : Store) (handled : Nat) (line : LoopLine) :
    Hall LoopServer where
  service := { world := loopSite host boxes (tables, ⟨none⟩, line), handled }

variable {host : Host} {boxes : Mailboxes} {tables : Store} {handled : Nat}

theorem handle_idle (room : Nat) (replies : List (UInt32 × List UInt8)) :
    handle loop (room + 1) (overLoop host boxes tables handled { replies }) =
      overLoop host boxes tables handled { replies } := rfl

/-- On the channel in memory an answer never has to wait. -/
theorem prompt_loop : (port loop).Prompt := by
  constructor
  · intro origin s
    change (LoopServer.replyBegin origin (s.server, s.machine.line)).1 ≠ _
    simp only [LoopServer.replyBegin]
    split <;> simp
  · intro m s
    change (LoopServer.replySend m (s.server, s.machine.line)).1 ≠ _
    simp only [LoopServer.replySend]
    split <;> simp

/-- A server that has handled the first of what waits for it goes on with the rest. -/
theorem settle_once {bytes : List UInt8} {rest : List (List UInt8)} {tables' : Store} {handled' : Nat}
    {replies replies' : List (UInt32 × List UInt8)}
    (done : Server.handleNext Site.store (port loop)
        (overLoop host boxes tables handled { requests := bytes :: rest, replies }).service =
      (.ok (), (overLoop host boxes tables' handled' { requests := rest, replies := replies' }).service)) :
    settle loop (overLoop host boxes tables handled { requests := bytes :: rest, replies }) =
      settle loop (overLoop host boxes tables' handled' { requests := rest, replies := replies' }) := by
  have turned : Server.turn Site.store (port loop) none
      (overLoop host boxes tables handled { requests := bytes :: rest, replies }).service = _ :=
    Server.turn_eq_handleNext prompt_loop _
  rw [done] at turned
  change handle loop (rest.length + 4) _ = handle loop (rest.length + 3) _
  rw [handle]
  simp only [overLoop, Option.isSome_none, Bool.false_eq_true, ↓reduceIte] at turned ⊢
  rw [turned]
  rfl

theorem settle_request (host : Host) (boxes : Mailboxes) (handled : Nat) {m : Message} (encodes : m.Encodes)
    (rows : tables.Encodes) (replies : List (UInt32 × List UInt8)) :
    ∃ scan, settle loop (overLoop host boxes tables handled { requests := [m.frame], replies }) =
      overLoop host boxes { Server.storeAfter m tables with scan } (handled + 1)
        { replies := replies ++ LoopServer.posted m.origin (Server.repliesTo m tables) } := by
  obtain ⟨scan, handledNext⟩ := LoopServer.handleNext_port encodes rows ⟨none⟩ replies handled
  refine ⟨scan, ?_⟩
  have step := (carries_loopSite host boxes).handleNext
    (tables, ⟨none⟩, { requests := [m.frame], replies }) handled
  rw [handledNext] at step
  exact (settle_once step).trans (handle_idle _ _)

end Hall

end DiscCatalog
