import DiscCatalog.Proofs.Client.Replies
import DiscCatalog.Proofs.Frame.Demands
import DiscCatalog.Proofs.Server.Sessions

namespace DiscCatalog

namespace Frame

/-- What is asked of a frame beyond its size and its mark, without which its origin cannot be read. -/
def Demand.beyondOrigin : List Demand := all.drop 2

theorem Demand.all_eq : all = size :: mark :: beyondOrigin := rfl

/-- The frames of whose origin a server learns although it cannot read them. -/
theorem malformed_iff {bytes : List UInt8} {origin : UInt32} {cause : FrameFault} :
    messageOfRead bytes = .error (.malformed (some origin) cause) ↔
      Demand.size.Met bytes ∧ Demand.mark.Met bytes ∧ headerOrigin bytes = origin ∧
        Demand.settle bytes (content bytes) Demand.beyondOrigin = .error cause := by
  unfold messageOfRead
  by_cases whole : bytes.length = size
  · have met : Demand.size.Met bytes := whole
    rw [if_neg (not_not_intro whole), Message.decode_eq_settle, Demand.all_eq, Demand.settle_of_met met,
      peekOrigin_eq whole]
    by_cases mark : Demand.mark.Met bytes
    · rw [Demand.settle_of_met mark, if_pos mark]
      cases Demand.settle bytes (content bytes) Demand.beyondOrigin <;> simp [met, mark]
    · rw [Demand.settle_of_unmet mark, if_neg mark]
      simp [mark]
  · have unmet : ¬ Demand.size.Met bytes := whole
    rw [if_pos whole]
    simp [unmet]

end Frame

/-- The word of a server on a frame that it could not read. -/
abbrev Message.refusal (origin : UInt32) (cause : FrameFault) : Message :=
  rejection origin (commandFailed cause.message)

namespace ServerCall

inductive Tells (word : Message) : List ServerCall → Prop
  | dropped (fault : ChannelFault) : Tells word [.begun word.origin (.error fault)]
  | told (outcome : Except ChannelFault Unit) : Tells word [.begun word.origin (.ok ()), .sent word outcome, .ended]

end ServerCall

namespace Server

variable {τ : Type} (port : ServerPort τ)

theorem reject_tells (origin : UInt32) (cause : FrameFault) (s : Noted τ) :
    ∃ calls, ServerCall.Tells (.refusal origin cause) calls ∧
      Notes s (reject (notedPort port) origin cause s) calls ∧ (reject (notedPort port) origin cause s).1 = s.1 := by
  rcases begun : port.replyBegin origin s.2.1 with ⟨fault | ⟨⟩, w⟩
  · rw [reject_unbegun (ServerPort.replyBegin_noting begun)]
    exact ⟨_, .dropped fault, rfl, rfl⟩
  · rw [reject_begun (ServerPort.replyBegin_noting begun)]
    have begins : Notes s (s.1, w, s.2.2 ++ [.begun origin (.ok ())]) [.begun origin (.ok ())] := rfl
    exact ⟨_, .told _, (begins.trans (notes_replySend port _ _)).trans rfl, rfl⟩

/-- A server that has received a frame of this origin that it cannot read does nothing but tell the origin so,
and its store stays as it was. -/
def OnlyTells (origin : UInt32) (cause : FrameFault) (v : Service (Noted τ)) : Prop :=
  ∃ calls u, handleNext (notedStore τ) (notedPort port) v = (.ok (), u) ∧
    Notes v.world u.world (.received (.error (.malformed (some origin) cause)) :: calls) ∧
    ServerCall.Tells (.refusal origin cause) calls ∧ u.world.1 = v.world.1 ∧ u.handled = v.handled

theorem onlyTells_of_receive {v : Service (Noted τ)} {received : τ} {origin : UInt32} {cause : FrameFault}
    (taken : port.receive v.world.2.1 = (.error (.malformed (some origin) cause), received)) :
    OnlyTells port origin cause v := by
  let got : Noted τ :=
    (v.world.1, received, v.world.2.2 ++ [.received (.error (.malformed (some origin) cause))])
  obtain ⟨calls, tells, noted, same⟩ := reject_tells port origin cause got
  have first : Notes v.world got [.received (.error (.malformed (some origin) cause))] := rfl
  exact ⟨calls, { v with world := reject (notedPort port) origin cause got },
    handleNext_malformed (ServerPort.receive_noting taken), first.trans noted, tells, same, rfl⟩

end Server

namespace Client

/-- The rejection of a frame is not a reply to what the client asked, unless it asked for a new database. -/
theorem single_rejection (origin : UInt32) (request : Request) (text : String) :
    single (.ofRequest origin request) (.rejection origin text) = .error (
      if request = .createDatabase then .rejected (Message.fitDiagnostic text)
      else .unexpectedReply s!"CreateDatabase reply to a {request.operation.name} request") := by
  cases request <;> rfl

theorem single_conclusion (asked : Message) (f : StoreFault) :
    single asked (asked.conclusion (.error f)) =
      .error (.rejected (Message.fitDiagnostic (commandFailed f.message))) :=
  single_of_failed rfl rfl

end Client

namespace Desk

variable {σ : Type} {port : ClientPort σ}

theorem perform_answered {c : ClientCall} {request : Request} (asks : Direct.request? c = some request)
    (point : ∀ query, request ≠ .findCatalog query) {d : Desk σ} {reply : Message} {fault : ClientFault} {t : σ}
    (answered : Client.Answered port (.ofRequest (port.origin d.client.world) request) [reply] d.client.world t)
    (failed : Client.single (.ofRequest (port.origin d.client.world) request) reply = .error fault) :
    d.perform port c = (.fault fault, { d with client := { d.client with world := t } }) := by
  obtain ⟨query, search, -⟩ | ⟨-, value, exchanged⟩ := perform_cases asks
  · exact absurd search (point query)
  · rw [exchanged, onClient, Client.exchange_answered answered, failed]
    rfl

end Desk

section Loop

variable {bytes : List UInt8} {origin : UInt32} {cause : FrameFault}
  (refused : messageOfRead bytes = .error (.malformed (some origin) cause))

include refused

theorem LoopServer.handleNext_refused (tables : Store) (rest : List (List UInt8)) (replies : List (UInt32 × List UInt8))
    (handled : Nat) :
    Server.handleNext (Server.memoryBeside _) (Server.besideMemory port)
        ⟨(tables, ⟨none⟩, { requests := bytes :: rest, replies }), handled⟩ =
      (.ok (), ⟨(tables, ⟨none⟩, { requests := rest, replies := replies ++ posted origin [.refusal origin cause] }),
        handled⟩) := by
  have received : (Server.besideMemory port).receive (tables, ⟨none⟩, { requests := bytes :: rest, replies }) =
      (.error (.malformed (some origin) cause), tables, ⟨none⟩, { requests := rest, replies }) := by
    simp only [Server.besideMemory, ServerPort.within, Part.lift, port, receive, poll, refused]
  have sent : port.replySend (.refusal origin cause)
      (⟨some origin⟩, { requests := rest, replies }) = (.ok (), ⟨some origin⟩,
        { requests := rest, replies := replies ++ posted origin [.refusal origin cause] }) := by
    simp only [port, replySend, Message.encode_of_encodes (Message.encodes_rejection origin _)]
    rfl
  have begun : (Server.besideMemory port).replyBegin origin (tables, ⟨none⟩, { requests := rest, replies }) =
      (.ok (), tables, ⟨some origin⟩, { requests := rest, replies }) := rfl
  rw [Server.handleNext_malformed received, Server.reject_begun begun, Server.replySend_besideMemory, sent]
  rfl

theorem Hall.settle_refused (host : Host) (boxes : Mailboxes) (tables : Store) (handled : Nat)
    (rest : List (List UInt8)) (replies : List (UInt32 × List UInt8)) :
    settle loop (overLoop host boxes tables handled { requests := bytes :: rest, replies }) =
      settle loop (overLoop host boxes tables handled
        { requests := rest, replies := replies ++ LoopServer.posted origin [.refusal origin cause] }) := by
  have step := (carries_loopSite host boxes).handleNext (tables, ⟨none⟩, { requests := bytes :: rest, replies }) handled
  rw [LoopServer.handleNext_refused refused] at step
  exact settle_once step

/-- On the channel in memory a client that asks behind a frame of its origin that cannot be read is given the
rejection of that frame. The answer to what it asked stays behind. -/
theorem LoopClient.answered_refused (host : Host) (boxes : Mailboxes) {tables : Store} (handled : Nat)
    (rows : tables.Encodes) {request : Request} (fits : request.misfit? = none) :
    ∃ scan, Client.Answered (Hall.clientPort Hall.loop) (.ofRequest origin request)
      [.refusal origin cause]
      (⟨origin, false⟩, Hall.overLoop host boxes tables handled { requests := [bytes] })
      (awaiting host boxes { Server.storeAfter (.ofRequest origin request) tables with scan } (handled + 1) origin
        (Server.repliesTo (.ofRequest origin request) tables)) := by
  have encodes := Message.encodes_ofRequest origin fits
  have stamped : stampedFrame origin (.ofRequest origin request) = .ok (Message.ofRequest origin request).frame := by
    rw [← stampedFrame_of_encodes encodes, Message.origin_ofRequest]
  have taken : send (.ofRequest origin request) (⟨origin, false⟩, { requests := [bytes] }) =
      (.ok (), ⟨origin, false⟩, { requests := [bytes, (Message.ofRequest origin request).frame] }) := by
    simp [send, stamped]
  have sent : (Hall.clientPort Hall.loop).send (.ofRequest origin request)
      (⟨origin, false⟩, Hall.overLoop host boxes tables handled { requests := [bytes] }) =
        (.ok (), ⟨origin, false⟩, Hall.overLoop host boxes tables handled
          { requests := [bytes, (Message.ofRequest origin request).frame] }) := by
    change ((send (.ofRequest origin request) (⟨origin, false⟩, { requests := [bytes] })).1,
      (send (.ofRequest origin request) (⟨origin, false⟩, { requests := [bytes] })).2.1,
      Hall.overLoop host boxes tables handled
        (send (.ofRequest origin request) (⟨origin, false⟩, { requests := [bytes] })).2.2) = _
    rw [taken]
  obtain ⟨scan, settled⟩ := Hall.settle_request host boxes handled encodes rows
    (LoopServer.posted origin [.refusal origin cause])
  rw [Message.origin_ofRequest] at settled
  have both := (Hall.settle_refused refused host boxes tables handled _ []).trans settled
  have begun : (Hall.clientPort Hall.loop).replyBegin (⟨origin, false⟩,
      Hall.overLoop host boxes tables handled { requests := [bytes, (Message.ofRequest origin request).frame] }) =
        (.ok (), awaiting host boxes { Server.storeAfter (.ofRequest origin request) tables with scan } (handled + 1) origin
          (.refusal origin cause :: Server.repliesTo (.ofRequest origin request) tables)) := by
    rw [replyBegin_settles, both]
    rfl
  exact ⟨scan, _, _, _, sent, begun, .cons (replyReceive_awaiting host boxes _ (handled + 1) origin
    (Message.encodes_rejection origin _) _) (.nil _), Nat.succ_le_succ (Nat.zero_le _), rfl⟩

end Loop

/-- A frame that is refused although its origin can be read fails a demand beyond that, and over every store and
on every channel the server does nothing but tell its origin so. A call that is handed this word takes it as the
rejection that it is only if it asked for a new database; any other call reports an unexpected reply. The failure
of a change is taken as a rejection by whatever call is handed it. -/
theorem Desk.handed_refusal {bytes : List UInt8} {origin : UInt32} {cause : FrameFault}
    (refused : messageOfRead bytes = .error (.malformed (some origin) cause)) :
    (∃ d ∈ Frame.Demand.beyondOrigin, ¬ d.Met bytes ∧ cause = d.fault bytes) ∧
    (Message.refusal origin cause).Encodes ∧
    (∀ {τ : Type} (port : ServerPort τ) (v : Service (Server.Noted τ)) (received : τ),
      port.receive v.world.2.1 = (messageOfRead bytes, received) → Server.OnlyTells port origin cause v) ∧
    ∀ {σ : Type} (port : ClientPort σ) (d : Desk σ) (t : σ) (c : ClientCall) (request : Request),
      Direct.request? c = some request → (∀ query, request ≠ .findCatalog query) → port.origin d.client.world = origin →
      let asked := Message.ofRequest origin request
      let left := { d with client := { d.client with world := t } }
      (Client.Answered port asked [.refusal origin cause] d.client.world t →
        d.perform port c = (.fault (
          if request = .createDatabase then .rejected (Message.fitDiagnostic (commandFailed cause.message))
          else .unexpectedReply s!"CreateDatabase reply to a {request.operation.name} request"), left)) ∧
      ∀ f, Client.Answered port asked [asked.conclusion (.error f)] d.client.world t →
        d.perform port c = (.fault (.rejected (Message.fitDiagnostic (commandFailed f.message))), left) := by
  refine ⟨?_, Message.encodes_rejection origin _, fun port v received taken => ?_, ?_⟩
  · obtain ⟨-, -, -, failed⟩ := Frame.malformed_iff.1 refused
    obtain ⟨before, d, after, split, -, unmet, same⟩ := Frame.Demand.settle_eq_error_iff.1 failed
    exact ⟨d, by simp [split], unmet, same⟩
  · rw [refused] at taken
    exact Server.onlyTells_of_receive port taken
  · rintro σ port d t c request asks point rfl asked left
    exact ⟨fun answered => perform_answered asks point answered (Client.single_rejection _ request _),
      fun f answered => perform_answered asks point answered (Client.single_conclusion asked f)⟩

/-- A frame of client 7 in which no operation has the tag that stands there. -/
def Frame.unknownOperation : List UInt8 := Frame.magic ++ [1, 0, 9, 0, 7, 0, 0, 0] ++ List.replicate 391 0

/-- Client 7 behind that frame, at a server that has nothing in its store. -/
def Desk.behindUnknown : Desk (LoopClient × Hall LoopServer) :=
  upon none none [] (⟨7, false⟩, Hall.overLoop (.fresh []) {} {} 0 { requests := [Frame.unknownOperation] })

/-- The client that asks for a new database next is told why the frame was refused. -/
theorem Desk.handed_refusal_creating :
    messageOfRead Frame.unknownOperation = .error (.malformed (some 7) (.unknownOperation 9)) ∧
      (behindUnknown.perform (Hall.clientPort Hall.loop) .createDatabase).1 =
        .fault (.rejected "command failed: Unknown operation tag: 9") := by
  have refused : messageOfRead Frame.unknownOperation = .error (.malformed (some 7) (.unknownOperation 9)) := by
    decide +kernel
  have fits : Request.createDatabase.misfit? = none := rfl
  obtain ⟨scan, answered⟩ := LoopClient.answered_refused refused (.fresh []) {} 0 Store.encodes_empty fits
  obtain ⟨-, -, -, told⟩ := Desk.handed_refusal refused
  have performed := (told (Hall.clientPort Hall.loop) behindUnknown _ .createDatabase .createDatabase rfl
    (fun query => Request.noConfusion) rfl).1 answered
  have word : Message.fitDiagnostic (commandFailed (FrameFault.unknownOperation 9).message) =
      "command failed: Unknown operation tag: 9" := by decide +kernel
  refine ⟨refused, ?_⟩
  rw [performed, if_pos rfl, word]

/-- The client that asks for a record next is told of a reply to something else. -/
theorem Desk.handed_refusal_looking_up :
    messageOfRead Frame.unknownOperation = .error (.malformed (some 7) (.unknownOperation 9)) ∧
      (behindUnknown.perform (Hall.clientPort Hall.loop) (.getCatalog "CD1")).1 =
        .fault (.unexpectedReply "CreateDatabase reply to a GetCatalog request") := by
  decide +kernel

end DiscCatalog
