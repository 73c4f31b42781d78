import DiscCatalog.Proofs.Client.Replies
import DiscCatalog.Proofs.Server.Effects

namespace DiscCatalog

/-- A client's end with a server behind it that answers whatever is sent at once and in full. The replies wait in their
order. Beginning a reply session or receiving may be interrupted, and takes no reply then. -/
structure InterruptedClient where
  client : LoopClient
  service : Service (Store × LoopServer × LoopLine)
  /-- Whether each of the coming beginnings and receivings is interrupted. Those after them are not. -/
  interruptions : List Bool := []

namespace InterruptedClient

def linePart : Part InterruptedClient (LoopClient × LoopLine) where
  get r := (r.client, r.service.world.2.2)
  set w r := { r with
    client := w.1
    service := { r.service with world := (r.service.world.1, r.service.world.2.1, w.2) } }

def serve (r : InterruptedClient) : InterruptedClient :=
  { r with
    service := (Server.handleNext (Server.memoryBeside _) (Server.besideMemory LoopServer.port) r.service).2 }

def send (m : Message) (r : InterruptedClient) : Except ChannelFault Unit × InterruptedClient :=
  match linePart.lift (LoopClient.send m) r with
  | (.ok (), r) => (.ok (), r.serve)
  | (.error f, r) => (.error f, r)

def unlessInterrupted {α : Type} (act : InterruptedClient → Except ChannelFault α × InterruptedClient)
    (r : InterruptedClient) : Except ChannelFault α × InterruptedClient :=
  let later := { r with interruptions := r.interruptions.tail }
  if r.interruptions.head? = some true then (.error .interrupted, later) else act later

def port : ClientPort InterruptedClient where
  origin r := r.client.origin
  send := send
  replyBegin := unlessInterrupted (linePart.lift LoopClient.replyBegin)
  replyReceive := unlessInterrupted (linePart.lift LoopClient.replyReceive)
  replyEnd r := r
  close r := linePart.set (LoopClient.port.close (linePart.get r)) r
  backlog r := r.service.world.2.2.replies.length

/-- The frames of the replies that are on their way to the client. -/
def inFlight (r : InterruptedClient) : List (UInt32 × List UInt8) := r.service.world.2.2.replies

/-- A client with these replies on their way to it. -/
def awaiting (origin : UInt32) (closed : Bool) (tables : Store) (handled : Nat) (pending : List Message)
    (interruptions : List Bool) : InterruptedClient where
  client := ⟨origin, closed⟩
  service := { world := (tables, ⟨none⟩, { replies := LoopServer.posted origin pending }), handled }
  interruptions := interruptions

variable {origin : UInt32} {closed : Bool} {tables : Store} {handled : Nat} {pending : List Message}
  {interruptions : List Bool} {m : Message}

theorem send_closed : port.send m (awaiting origin true tables handled pending interruptions) =
    (.error .closed, awaiting origin true tables handled pending interruptions) := rfl

theorem send_misfit {fault : FrameFault} (misfit : m.misfit? = some fault) :
    port.send m (awaiting origin false tables handled pending interruptions) =
      (.error (.frame fault), awaiting origin false tables handled pending interruptions) := by
  have refused : LoopClient.send m (linePart.get (awaiting origin false tables handled pending interruptions)) =
      (.error (.frame fault), linePart.get (awaiting origin false tables handled pending interruptions)) := by
    simp [LoopClient.send, linePart, awaiting, stampedFrame_of_misfit origin misfit]
  simp only [port, send, Part.lift, refused]
  rfl

theorem send_encodes (encodes : m.Encodes) (rows : tables.Encodes) (handled : Nat) (pending : List Message)
    (interruptions : List Bool) :
    ∃ scan, port.send m (awaiting m.origin false tables handled pending interruptions) =
      (.ok (), awaiting m.origin false { Server.storeAfter m tables with scan } (handled + 1)
        (pending ++ Server.repliesTo m tables) interruptions) := by
  obtain ⟨scan, handledNext⟩ := LoopServer.handleNext_port encodes rows ⟨none⟩ (LoopServer.posted m.origin pending) handled
  have taken : LoopClient.send m (linePart.get (awaiting m.origin false tables handled pending interruptions)) =
      (.ok (), ⟨m.origin, false⟩, { requests := [m.frame], replies := LoopServer.posted m.origin pending }) := by
    simp [LoopClient.send, linePart, awaiting, stampedFrame_of_encodes encodes]
  refine ⟨scan, ?_⟩
  simp only [port, send, Part.lift, taken]
  have served := congrArg (fun r => (⟨⟨m.origin, false⟩, r.2, interruptions⟩ : InterruptedClient)) handledNext
  refine Prod.ext rfl (served.trans ?_)
  rw [awaiting, LoopServer.posted_append]

theorem replyBegin_awaiting (origin : UInt32) (tables : Store) (handled : Nat) (pending : List Message)
    (interruptions : List Bool) :
    port.replyBegin (awaiting origin false tables handled pending interruptions) =
      (if interruptions.head? = some true then .error .interrupted else .ok (),
        awaiting origin false tables handled pending interruptions.tail) := by
  by_cases interrupted : interruptions.head? = some true
  · rw [if_pos interrupted]
    exact if_pos interrupted
  · rw [if_neg interrupted]
    exact (if_neg interrupted).trans rfl

theorem replyReceive_awaiting {r : Message} (encodes : r.Encodes) (origin : UInt32) (closed : Bool) (tables : Store)
    (handled : Nat) (rest : List Message) (interruptions : List Bool) :
    port.replyReceive (awaiting origin closed tables handled (r :: rest) interruptions) =
      if interruptions.head? = some true then
        (.error .interrupted, awaiting origin closed tables handled (r :: rest) interruptions.tail)
      else (.ok r, awaiting origin closed tables handled rest interruptions.tail) := by
  have read : LoopClient.replyReceive
      (linePart.get (awaiting origin closed tables handled (r :: rest) interruptions.tail)) =
      (.ok r, ⟨origin, closed⟩, { replies := LoopServer.posted origin rest }) := by
    simp [LoopClient.replyReceive, linePart, awaiting, LoopServer.posted, messageOfRead_frame encodes]
  by_cases interrupted : interruptions.head? = some true
  · rw [if_pos interrupted]
    exact if_pos interrupted
  · rw [if_neg interrupted]
    refine (if_neg interrupted).trans ?_
    change linePart.lift LoopClient.replyReceive
      (awaiting origin closed tables handled (r :: rest) interruptions.tail) = _
    rw [Part.lift, read]
    rfl

def EndsAnswer (pending : List Message) : Prop :=
  ∃ front last, pending = front ++ [last] ∧ ∀ asked : Message, asked.operation = .findCatalog → Client.Stops asked last

theorem endsAnswer_repliesTo (origin : UInt32) (request : Request) (tables : Store) :
    EndsAnswer (Server.repliesTo (.ofRequest origin request) tables) := by
  have other : ∀ reply asked : Message, reply.operation ≠ .findCatalog → asked.operation = .findCatalog →
      Client.Stops asked reply := fun reply asked other same => .inl (same ▸ other)
  cases request with
  | findCatalog query => exact ⟨_, _, rfl, fun asked _ => .inr (by simp [Message.noMore, Message.reply])⟩
  | getCatalog | getTrack => exact ⟨[], _, rfl, fun asked => other _ asked fun same => by cases same⟩
  | createDatabase | addCatalog | addTrack | deleteCatalog | deleteTrack =>
    refine ⟨[], _, rfl, fun asked => other _ asked ?_⟩
    rw [(Server.conclusion_addressed _ _).2]
    exact fun same => by cases same

theorem EndsAnswer.behind {more : List Message} (ends : EndsAnswer more) (pending : List Message) :
    EndsAnswer (pending ++ more) := by
  obtain ⟨front, last, rfl, stops⟩ := ends
  exact ⟨pending ++ front, last, (List.append_assoc ..).symm, stops⟩

theorem EndsAnswer.suffix {left : List Message} (ends : EndsAnswer pending) (suffix : left <:+ pending)
    (some : left ≠ []) : EndsAnswer left := by
  obtain ⟨front, last, rfl, stops⟩ := ends
  obtain ⟨read, parts⟩ := suffix
  obtain ⟨kept, last', rfl⟩ := (List.eq_nil_or_concat' left).resolve_left some
  rw [← List.append_assoc] at parts
  obtain ⟨-, same⟩ := List.append_inj' parts rfl
  cases same
  exact ⟨kept, _, rfl, stops⟩

theorem EndsAnswer.ne_nil (ends : EndsAnswer pending) : pending ≠ [] := by
  obtain ⟨front, last, rfl, -⟩ := ends
  simp

def after (origin : UInt32) (tables : Store) (handled : Nat) (request : Request) (scan : Scan) (left : List Message)
    (interruptions : List Bool) : InterruptedClient :=
  awaiting origin false { Server.storeAfter (.ofRequest origin request) tables with scan } (handled + 1) left interruptions

variable {request : Request} {room : Option SystemFault} {held : Option Cursor}

theorem encode_behind (rows : tables.Encodes) (fits : request.misfit? = none) (encode : ∀ r ∈ pending, r.Encodes)
    (origin : UInt32) :
    ∀ r ∈ pending ++ Server.repliesTo (.ofRequest origin request) tables, r.Encodes :=
  List.forall_mem_append.2
    ⟨encode, (Server.repliesTo_encode_iff rows).2 (Message.encodes_ofRequest origin fits).echoes⟩

theorem send_ofRequest (rows : tables.Encodes) (fits : request.misfit? = none) (origin : UInt32) (handled : Nat)
    (pending : List Message) (interruptions : List Bool) :
    ∃ scan, port.send (.ofRequest origin request) (awaiting origin false tables handled pending interruptions) =
      (.ok (), after origin tables handled request scan
        (pending ++ Server.repliesTo (.ofRequest origin request) tables) interruptions) := by
  obtain ⟨scan, sent⟩ := send_encodes (Message.encodes_ofRequest origin fits) rows handled pending interruptions
  rw [Message.origin_ofRequest] at sent
  exact ⟨scan, sent⟩

section Exchange

variable (rows : tables.Encodes) (fits : request.misfit? = none) (encode : ∀ r ∈ pending, r.Encodes)
  (origin : UInt32) (handled : Nat) (room : Option SystemFault) (held : Option Cursor)

include rows fits encode

/-- An exchange that is interrupted leaves all replies on their way, its own behind the others. -/
theorem exchange_interrupted {interruptions : List Bool}
    (interrupted : interruptions.head? = some true ∨ interruptions.tail.head? = some true) :
    ∃ scan later, Client.exchange port request
        { world := awaiting origin false tables handled pending interruptions, spoolRoom := room, held } =
      (.error (.channel .interrupted), {
        world := after origin tables handled request scan
          (pending ++ Server.repliesTo (.ofRequest origin request) tables) later
        spoolRoom := room, held }) := by
  obtain ⟨scan, sent⟩ := send_ofRequest rows fits origin handled pending interruptions
  have begun := replyBegin_awaiting origin { Server.storeAfter (.ofRequest origin request) tables with scan }
    (handled + 1) (pending ++ Server.repliesTo (.ofRequest origin request) tables) interruptions
  by_cases begins : interruptions.head? = some true
  · rw [if_pos begins] at begun
    exact ⟨scan, interruptions.tail, Client.exchange_failed sent (.inl begun)⟩
  · rw [if_neg begins] at begun
    obtain ⟨oldest, rest, parts⟩ := List.exists_cons_of_ne_nil
      (List.append_ne_nil_of_right_ne_nil pending (Server.repliesTo_ne_nil (.ofRequest origin request) tables))
    have read := encode_behind rows fits encode origin
    rw [parts] at sent begun read ⊢
    have received := replyReceive_awaiting (read oldest List.mem_cons_self) origin false
      { Server.storeAfter (.ofRequest origin request) tables with scan } (handled + 1) rest interruptions.tail
    rw [if_pos (interrupted.resolve_left begins)] at received
    exact ⟨scan, interruptions.tail.tail, Client.exchange_failed sent (.inr ⟨_, begun, received⟩)⟩

/-- An exchange that is not interrupted reads the oldest of all replies on their way. -/
theorem exchange_oldest {interruptions : List Bool}
    (goes : ¬ (interruptions.head? = some true ∨ interruptions.tail.head? = some true)) :
    ∃ scan later oldest rest, pending ++ Server.repliesTo (.ofRequest origin request) tables = oldest :: rest ∧
      Client.exchange port request
        { world := awaiting origin false tables handled pending interruptions, spoolRoom := room, held } =
      (Client.single (.ofRequest origin request) oldest, {
        world := after origin tables handled request scan rest later, spoolRoom := room, held }) := by
  obtain ⟨scan, sent⟩ := send_ofRequest rows fits origin handled pending interruptions
  have begun := replyBegin_awaiting origin { Server.storeAfter (.ofRequest origin request) tables with scan }
    (handled + 1) (pending ++ Server.repliesTo (.ofRequest origin request) tables) interruptions
  obtain ⟨begins, reads⟩ := not_or.1 goes
  obtain ⟨oldest, rest, parts⟩ := List.exists_cons_of_ne_nil
    (List.append_ne_nil_of_right_ne_nil pending (Server.repliesTo_ne_nil (.ofRequest origin request) tables))
  have read := encode_behind rows fits encode origin
  rw [parts] at sent begun read
  have received := replyReceive_awaiting (read oldest List.mem_cons_self) origin false
    { Server.storeAfter (.ofRequest origin request) tables with scan } (handled + 1) rest interruptions.tail
  rw [if_neg begins] at begun
  rw [if_neg reads] at received
  exact ⟨scan, interruptions.tail.tail, oldest, rest, parts, Client.exchange_received sent begun received⟩

end Exchange

theorem drain_next {asked r : Message} (encodes : r.Encodes) (spoolRoom : Option SystemFault) (spool : Spool) (room : Nat)
    (origin : UInt32) (closed : Bool) (tables : Store) (handled : Nat) (rest : List Message) (interruptions : List Bool) :
    Client.drain port asked spoolRoom (room + 1) spool
        (awaiting origin closed tables handled (r :: rest) interruptions) =
      if interruptions.head? = some true then ((.error (.channel .interrupted), spool),
        awaiting origin closed tables handled (r :: rest) interruptions.tail)
      else if Client.Stops asked r then (Client.readReplies asked spoolRoom spool [r],
        awaiting origin closed tables handled rest interruptions.tail)
      else Client.drain port asked spoolRoom room (spool.push spoolRoom r.catalog)
        (awaiting origin closed tables handled rest interruptions.tail) := by
  have received := replyReceive_awaiting encodes origin closed tables handled rest interruptions
  by_cases interrupted : interruptions.head? = some true
  · rw [if_pos interrupted] at received ⊢
    exact Client.drain_failed received _
  · rw [if_neg interrupted] at received ⊢
    exact Client.drain_received received room

theorem drain_awaiting {asked : Message} {front : List Message} {last : Message}
    (encode : ∀ r ∈ front ++ [last], r.Encodes) (goes : ∀ r ∈ front, ¬ Client.Stops asked r)
    (stops : Client.Stops asked last) (spoolRoom : Option SystemFault) (spool : Spool) {room : Nat}
    (enough : front.length < room) (origin : UInt32) (closed : Bool) (tables : Store) (handled : Nat)
    (rest : List Message) (interruptions : List Bool) :
    ∃ later read left, Client.drain port asked spoolRoom room spool
        (awaiting origin closed tables handled (front ++ last :: rest) interruptions) =
        (read, awaiting origin closed tables handled (left ++ rest) later) ∧
      ((read.1 = .error (.channel .interrupted) ∧ left ≠ [] ∧ left <:+ front ++ [last]) ∨
        read = Client.readReplies asked spoolRoom spool (front ++ [last]) ∧ left = []) := by
  induction front generalizing spool room interruptions with
  | nil =>
    obtain ⟨room, rfl⟩ := Nat.exists_eq_succ_of_ne_zero (Nat.ne_zero_of_lt enough)
    rw [List.nil_append, drain_next (encode last (by simp)), if_pos stops]
    by_cases interrupted : interruptions.head? = some true
    · rw [if_pos interrupted]
      exact ⟨_, _, [last], rfl, .inl ⟨rfl, by simp, List.suffix_refl _⟩⟩
    · rw [if_neg interrupted]
      exact ⟨_, _, [], rfl, .inr ⟨rfl, rfl⟩⟩
  | cons r front ih =>
    obtain ⟨room, rfl⟩ := Nat.exists_eq_succ_of_ne_zero (Nat.ne_zero_of_lt enough)
    obtain ⟨first, encode⟩ := List.forall_mem_cons.1 encode
    obtain ⟨on, goes⟩ := List.forall_mem_cons.1 goes
    rw [List.cons_append, drain_next first, if_neg on, List.cons_append, Client.readReplies_goes on]
    by_cases interrupted : interruptions.head? = some true
    · rw [if_pos interrupted]
      refine ⟨interruptions.tail, (.error (.channel .interrupted), spool), r :: front ++ [last], ?_,
        .inl ⟨rfl, by simp, List.suffix_refl _⟩⟩
      rw [List.cons_append, List.cons_append, List.append_assoc]
      rfl
    · rw [if_neg interrupted]
      obtain ⟨later, read, left, drained, ending⟩ :=
        ih encode goes (spool.push spoolRoom r.catalog) (Nat.lt_of_succ_lt_succ enough) interruptions.tail
      refine ⟨later, read, left, drained, ending.imp_left fun ⟨fault, more, suffix⟩ => ?_⟩
      exact ⟨fault, more, suffix.trans (List.suffix_cons r _)⟩

theorem exists_first_stop {asked : Message} {replies : List Message} (some : ∃ r ∈ replies, Client.Stops asked r) :
    ∃ front last rest, replies = front ++ last :: rest ∧ (∀ r ∈ front, ¬ Client.Stops asked r) ∧
      Client.Stops asked last := by
  have inside : (replies.find? fun r => decide (Client.Stops asked r)).isSome :=
    List.find?_isSome.2 (by simpa using some)
  obtain ⟨last, found⟩ := Option.isSome_iff_exists.1 inside
  obtain ⟨stops, front, rest, parts, goes⟩ := List.find?_eq_some_iff_append.1 found
  exact ⟨front, last, rest, parts, fun r inside => by simpa using goes r inside, of_decide_eq_true stops⟩

section Search

variable {query : String} (rows : tables.Encodes) (fits : (Request.findCatalog query).misfit? = none)

include rows fits

theorem search_awaiting (encode : ∀ r ∈ pending, r.Encodes) {front rest : List Message} {last : Message}
    (parts : pending ++ Server.repliesTo (.ofRequest origin (.findCatalog query)) tables = front ++ last :: rest)
    (goes : ∀ r ∈ front, ¬ Client.Stops (.ofRequest origin (.findCatalog query)) r)
    (stops : Client.Stops (.ofRequest origin (.findCatalog query)) last) (handled : Nat) (interruptions : List Bool)
    (room : Option SystemFault) (held : Option Cursor) :
    ∃ scan later outcome left,
      Client.search port query
          { world := awaiting origin false tables handled pending interruptions, spoolRoom := room, held } =
        (outcome, {
          world := after origin tables handled (.findCatalog query) scan (left ++ rest) later, spoolRoom := room, held }) ∧
      ((outcome = .error (.channel .interrupted) ∧ left ≠ [] ∧ left <:+ front ++ [last]) ∨
        outcome = Client.cursorOf (Client.readReplies (.ofRequest origin (.findCatalog query)) room {}
          (front ++ [last])) ∧ left = []) := by
  obtain ⟨scan, sent⟩ := send_ofRequest rows fits origin handled pending interruptions
  have encode := encode_behind rows fits encode origin
  rw [parts] at sent encode
  have begun := replyBegin_awaiting origin { Server.storeAfter (.ofRequest origin (.findCatalog query)) tables with scan }
    (handled + 1) (front ++ last :: rest) interruptions
  by_cases begins : interruptions.head? = some true
  · rw [if_pos begins] at begun
    refine ⟨scan, interruptions.tail, _, front ++ [last], ?_, .inl ⟨rfl, by simp, List.suffix_refl _⟩⟩
    rw [List.append_assoc]
    exact Client.search_unbegun sent begun
  · rw [if_neg begins] at begun
    have enough : front.length < port.backlog (after origin tables handled (.findCatalog query) scan
        (front ++ last :: rest) interruptions.tail) + 1 := by
      change front.length < (LoopServer.posted origin (front ++ last :: rest)).length + 1
      rw [LoopServer.posted, List.length_map, List.length_append]
      omega
    have some : ∀ r ∈ front ++ [last], r.Encodes := fun r inside => by
      rw [List.append_cons] at encode
      exact encode r (List.mem_append_left rest inside)
    obtain ⟨later, read, left, drained, ending⟩ := drain_awaiting some goes stops room {} enough origin false
      { Server.storeAfter (.ofRequest origin (.findCatalog query)) tables with scan } (handled + 1) rest interruptions.tail
    refine ⟨scan, later, Client.cursorOf read, left, Client.search_begun sent begun drained, ?_⟩
    obtain ⟨fault, more, suffix⟩ | ⟨rfl, rfl⟩ := ending
    · exact .inl ⟨by rw [Client.cursorOf, fault], more, suffix⟩
    · exact .inr ⟨rfl, rfl⟩

theorem search_clear (origin : UInt32) (handled : Nat) (interruptions : List Bool) (room : Option SystemFault)
    (held : Option Cursor) :
    ∃ scan later outcome left,
      Client.search port query
          { world := awaiting origin false tables handled [] interruptions, spoolRoom := room, held } =
        (outcome, { world := after origin tables handled (.findCatalog query) scan left later, spoolRoom := room, held }) ∧
      ((outcome = .error (.channel .interrupted) ∧ left ≠ [] ∧
          left <:+ Server.repliesTo (.ofRequest origin (.findCatalog query)) tables) ∨
        outcome = Client.found origin query room tables ∧ left = []) := by
  obtain ⟨front, last, replies, goes, stops⟩ := Client.whole_repliesTo origin query tables
  have none : ∀ r ∈ ([] : List Message), r.Encodes := by simp
  have read := search_awaiting rows fits none replies goes stops handled interruptions room held
  rw [← replies] at read
  simp only [List.append_nil] at read
  exact read

/-- A search before which something is on its way reads nothing of its own answer. -/
theorem search_behind (encode : ∀ r ∈ pending, r.Encodes) (ends : EndsAnswer pending) (origin : UInt32) (handled : Nat)
    (interruptions : List Bool) (room : Option SystemFault) (held : Option Cursor) :
    ∃ scan later outcome read left,
      Client.search port query
          { world := awaiting origin false tables handled pending interruptions, spoolRoom := room, held } =
        (outcome, {
          world := after origin tables handled (.findCatalog query) scan
            (left ++ Server.repliesTo (.ofRequest origin (.findCatalog query)) tables) later
          spoolRoom := room, held }) ∧
      pending = read ++ left := by
  have some : ∃ r ∈ pending, Client.Stops (.ofRequest origin (.findCatalog query)) r := by
    obtain ⟨first, final, rfl, stops⟩ := ends
    exact ⟨final, by simp, stops _ rfl⟩
  obtain ⟨front, last, rest, rfl, goes, stops⟩ := exists_first_stop some
  obtain ⟨scan, later, outcome, left, searched, ending⟩ := search_awaiting rows fits encode
    (List.append_assoc front (last :: rest) _) goes stops handled interruptions room held
  have suffix : left <:+ front ++ [last] := by
    obtain ⟨-, -, suffix⟩ | ⟨-, rfl⟩ := ending
    · exact suffix
    · exact List.nil_suffix
  obtain ⟨read, parts⟩ := suffix
  refine ⟨scan, later, outcome, read, left ++ rest, ?_, ?_⟩
  · rw [List.append_assoc]
    exact searched
  · rw [← List.append_assoc, parts, List.append_assoc]
    rfl

end Search

/-- A call that goes out before which nothing is on its way is interrupted, or comes to its own answer. -/
theorem perform_clear {c : ClientCall} (asks : Direct.request? c = some request) (rows : tables.Encodes)
    (fits : request.misfit? = none) (origin : UInt32) (handled : Nat) (interruptions : List Bool)
    (room : Option SystemFault) (held : Option Cursor) (cursors : List Cursor) :
    ∃ scan later answer held' cursors' left,
      (Desk.upon room held cursors (awaiting origin false tables handled [] interruptions)).perform port c =
        (answer, Desk.upon room held' cursors' (after origin tables handled request scan left later)) ∧
      ((answer = .fault (.channel .interrupted) ∧ left ≠ [] ∧
          left <:+ Server.repliesTo (.ofRequest origin request) tables) ∨
        Desk.OnAnswer c request origin tables room held cursors answer held' cursors' ∧ left = []) := by
  obtain ⟨query, rfl, rfl | rfl⟩ | ⟨single, value, exchanged⟩ := Desk.perform_cases asks
  · obtain ⟨scan, later, outcome, left, searched, ending⟩ :=
      search_clear rows fits origin handled interruptions room none
    refine ⟨scan, later, _, _, cursors, left, Desk.find_upon searched, ?_⟩
    obtain ⟨rfl, some, suffix⟩ | ⟨rfl, rfl⟩ := ending
    · exact .inl ⟨rfl, some, suffix⟩
    · exact .inr ⟨Desk.onAnswer_find origin query tables, rfl⟩
  · obtain ⟨scan, later, outcome, left, searched, ending⟩ :=
      search_clear rows fits origin handled interruptions room held
    refine ⟨scan, later, _, held, _, left, Desk.search_upon searched, ?_⟩
    obtain ⟨rfl, some, suffix⟩ | ⟨rfl, rfl⟩ := ending
    · exact .inl ⟨rfl, some, suffix⟩
    · exact .inr ⟨Desk.onAnswer_search origin query tables, rfl⟩
  · obtain ⟨reply, replies⟩ := Server.repliesTo_single single origin tables
    have none : ∀ r ∈ ([] : List Message), r.Encodes := by simp
    rw [exchanged]
    by_cases interrupted : interruptions.head? = some true ∨ interruptions.tail.head? = some true
    · obtain ⟨scan, later, made⟩ := exchange_interrupted rows fits none origin handled room held interrupted
      exact ⟨scan, later, _, held, cursors, _, Desk.onClient_upon value made,
        .inl ⟨rfl, Server.repliesTo_ne_nil _ _, List.suffix_refl _⟩⟩
    · obtain ⟨scan, later, oldest, rest, parts, made⟩ :=
        exchange_oldest rows fits none origin handled room held interrupted
      rw [List.nil_append, replies] at parts
      cases parts
      exact ⟨scan, later, _, held, cursors, _, Desk.onClient_upon value made,
        .inr ⟨Desk.onAnswer_exchange exchanged replies, rfl⟩⟩

/-- A call that goes out before which something is on its way reads nothing of its own answer. -/
theorem perform_behind {c : ClientCall} (asks : Direct.request? c = some request) (rows : tables.Encodes)
    (fits : request.misfit? = none) (encode : ∀ r ∈ pending, r.Encodes) (ends : EndsAnswer pending) (origin : UInt32)
    (handled : Nat) (interruptions : List Bool) (room : Option SystemFault) (held : Option Cursor)
    (cursors : List Cursor) :
    ∃ scan later answer held' cursors' read left,
      (Desk.upon room held cursors (awaiting origin false tables handled pending interruptions)).perform port c =
        (answer, Desk.upon room held' cursors' (after origin tables handled request scan
          (left ++ Server.repliesTo (.ofRequest origin request) tables) later)) ∧
      pending = read ++ left := by
  obtain ⟨query, rfl, rfl | rfl⟩ | ⟨single, value, exchanged⟩ := Desk.perform_cases asks
  · obtain ⟨scan, later, outcome, read, left, searched, parts⟩ :=
      search_behind rows fits encode ends origin handled interruptions room none
    exact ⟨scan, later, _, _, cursors, read, left, Desk.find_upon searched, parts⟩
  · obtain ⟨scan, later, outcome, read, left, searched, parts⟩ :=
      search_behind rows fits encode ends origin handled interruptions room held
    exact ⟨scan, later, _, held, _, read, left, Desk.search_upon searched, parts⟩
  · rw [exchanged]
    by_cases interrupted : interruptions.head? = some true ∨ interruptions.tail.head? = some true
    · obtain ⟨scan, later, made⟩ := exchange_interrupted rows fits encode origin handled room held interrupted
      exact ⟨scan, later, _, held, cursors, [], pending, Desk.onClient_upon value made, rfl⟩
    · obtain ⟨scan, later, oldest, _, parts, made⟩ :=
        exchange_oldest rows fits encode origin handled room held interrupted
      obtain ⟨first, rest, rfl⟩ := List.exists_cons_of_ne_nil ends.ne_nil
      cases parts
      exact ⟨scan, later, _, held, cursors, [oldest], rest, Desk.onClient_upon value made, rfl⟩

end InterruptedClient

namespace Direct

/-- The replies that a server makes to a call, if the call goes out. -/
def replies (origin : UInt32) (c : ClientCall) (f : Finds) (s : Store) : List Message :=
  match request? c with
  | none => []
  | some request =>
    if f.closed ∨ request.misfit?.isSome then [] else Server.repliesTo (.ofRequest origin request) s

/-- What a client has found and what is stored, once these calls are made on the store itself. -/
def callAll : List ClientCall → Finds → Store → Finds × Store
  | [], f, s => (f, s)
  | c :: calls, f, s => callAll calls (call c f s).2.1 (call c f s).2.2

/-- The replies that a server makes to these calls, in their order. -/
def repliesAll (origin : UInt32) : List ClientCall → Finds → Store → List Message
  | [], _, _ => []
  | c :: calls, f, s => replies origin c f s ++ repliesAll origin calls (call c f s).2.1 (call c f s).2.2

end Direct

/-- Makes calls one after the other, and collects what they give. -/
def Desk.performAll {σ : Type} (port : ClientPort σ) : List ClientCall → Desk σ → List ClientAnswer × Desk σ
  | [], d => ([], d)
  | c :: calls, d =>
    ((d.perform port c).1 :: (performAll port calls (d.perform port c).2).1, (performAll port calls (d.perform port c).2).2)

namespace InterruptedClient

open Direct (Finds Outcome Shows Sound call replies)

structure Follows (origin : UInt32) (pending : List Message) (f : Finds) (tables : Store) (d : Desk InterruptedClient) : Prop where
  desk : ∃ scan handled interruptions held cursors,
    d = Desk.upon none held cursors (awaiting origin f.closed { tables with scan } handled pending interruptions) ∧
      (pending = [] → f.Held held cursors)
  encode : ∀ r ∈ pending, r.Encodes
  ends : pending ≠ [] → EndsAnswer pending

/-- How a call goes: it is given its own answer, or is interrupted and leaves part of its replies on their way, or
some were on their way before, and it leaves all of its own behind them. -/
inductive Fares (pending own : List Message) (outcome : Outcome) : ClientAnswer → List Message → Prop
  | answered {answer : ClientAnswer} : pending = [] → Shows (.answered answer) outcome → Fares pending own outcome answer []
  | interrupted {left : List Message} : pending = [] → left ≠ [] → left <:+ own →
      Fares pending own outcome (.fault (.channel .interrupted)) left
  | behind {read left : List Message} {answer : ClientAnswer} : pending ≠ [] → pending = read ++ left →
      left ++ own ≠ [] → Fares pending own outcome answer (left ++ own)

theorem Follows.inFlight {f : Finds} {d : Desk InterruptedClient} (follows : Follows origin pending f tables d) :
    d.client.world.inFlight = LoopServer.posted origin pending := by
  obtain ⟨⟨scan, handled, interruptions, held, cursors, rfl, -⟩, -, -⟩ := follows
  rfl

theorem Fares.suffix {own left : List Message} {outcome : Outcome} {answer : ClientAnswer}
    (fares : Fares pending own outcome answer left) : left <:+ pending ++ own := by
  cases fares with
  | answered => exact List.nil_suffix
  | interrupted clear some suffix => exact suffix.trans (List.suffix_append _ _)
  | @behind read left _ _ parts _ =>
    rw [parts, List.append_assoc]
    exact List.suffix_append _ _

theorem Fares.clear_iff {own left : List Message} {outcome : Outcome} {answer : ClientAnswer}
    (fares : Fares pending own outcome answer left) :
    left = [] ↔ pending = [] ∧ ¬ .fault (.channel .interrupted) = answer := by
  cases fares with
  | answered clear shown =>
    refine iff_of_true rfl ⟨clear, ?_⟩
    rintro rfl
    cases shown
  | interrupted clear some => exact iff_of_false some fun h => h.2 rfl
  | behind some _ more => exact iff_of_false more fun h => some h.1

theorem Fares.unsent {own : List Message} {outcome : Outcome} {answer : ClientAnswer} (none : own = [])
    (shown : pending = [] → Shows (.answered answer) outcome) : Fares pending own outcome answer pending := by
  by_cases clear : pending = []
  · subst clear
    exact .answered rfl (shown rfl)
  · have still : Fares pending own outcome answer (pending ++ own) :=
      .behind clear (List.nil_append pending).symm (List.append_ne_nil_of_left_ne_nil clear _)
    rwa [none, List.append_nil, ← none] at still

theorem after_eq {c : ClientCall} {f : Finds} (asks : Direct.request? c = some request) (opened : f.closed = false)
    (fits : request.misfit? = none) (origin : UInt32) (tables : Store) (handled : Nat) (scan scan' : Scan)
    (left : List Message) (interruptions : List Bool) :
    after origin { tables with scan } handled request scan' left interruptions =
      awaiting origin (call c f tables).2.1.closed { (call c f tables).2.2 with scan := scan' } (handled + 1) left
        interruptions := by
  obtain ⟨store, closed⟩ := Direct.call_sent tables asks opened fits origin
  obtain ⟨_, same⟩ := Server.storeAfter_scan (.ofRequest origin request) tables scan
  rw [after, same, store, closed]

theorem sound_scan {f : Finds} (sound : Sound tables f) (scan : Scan) : Sound { tables with scan } f :=
  ⟨⟨sound.keys.catalogs, sound.keys.tracks⟩, ⟨sound.rows.catalogs, sound.rows.tracks⟩, sound.finds⟩

theorem shows_scan {c : ClientCall} {f : Finds} {scan : Scan} {answer : ClientAnswer} {held : Option Cursor}
    {cursors : List Cursor} (shown : Shows (.answered answer) (call c f { tables with scan }).1 ∧
      (call c f { tables with scan }).2.1.Held held cursors) :
    Shows (.answered answer) (call c f tables).1 ∧ (call c f tables).2.1.Held held cursors := by
  obtain ⟨_, same⟩ := Direct.call_scan c f tables scan
  rwa [same] at shown

section Calls

variable {c : ClientCall} {f : Finds} {d : Desk InterruptedClient} (follows : Follows origin pending f tables d)
  (sound : Sound tables f)

include follows sound

theorem Follows.unasked (asks : Direct.request? c = none) :
    Follows origin pending (call c f tables).2.1 (call c f tables).2.2 (d.perform port c).2 ∧
      (pending = [] → Shows (.answered (d.perform port c).1) (call c f tables).1) := by
  obtain ⟨⟨scan, handled, interruptions, held, cursors, rfl, holds⟩, encode, ends⟩ := follows
  by_cases stays : c = .close
  · subst stays
    rw [Desk.perform_close]
    exact ⟨⟨⟨scan, handled, interruptions, none, cursors, rfl, fun clear => ⟨rfl, (holds clear).2⟩⟩, encode, ends⟩,
      fun _ => .done⟩
  · obtain ⟨answer, held', cursors', made⟩ := Desk.perform_unasked asks stays none held cursors
    obtain ⟨store, closed⟩ := Direct.call_unasked f tables asks stays
    have shown (clear : pending = []) : Shows (.answered answer) (call c f tables).1 ∧
        (call c f tables).2.1.Held held' cursors' := by
      obtain ⟨rfl, rfl⟩ := holds clear
      exact Direct.shows_of_loop sound origin default default 0 (made _ _)
    rw [made]
    refine ⟨⟨⟨scan, handled, interruptions, held', cursors', ?_, fun clear => (shown clear).2⟩, encode, ends⟩,
      fun clear => (shown clear).1⟩
    rw [store, closed]

omit sound in
theorem Follows.refused (asks : Direct.request? c = some request) (fault : ChannelFault)
    (unsent : call c f tables = ((call c f tables).1, Direct.unsent c f, tables))
    (shown : Shows (.answered (.fault (.channel fault))) (call c f tables).1)
    (refused : ∀ tables handled interruptions, port.send (.ofRequest origin request)
        (awaiting origin f.closed tables handled pending interruptions) =
      (.error fault, awaiting origin f.closed tables handled pending interruptions)) :
    Follows origin pending (call c f tables).2.1 (call c f tables).2.2 (d.perform port c).2 ∧
      Shows (.answered (d.perform port c).1) (call c f tables).1 := by
  obtain ⟨⟨scan, handled, interruptions, held, cursors, rfl, holds⟩, encode, ends⟩ := follows
  rw [Desk.perform_refused asks (refused _ _ _)]
  refine ⟨⟨⟨scan, handled, interruptions, Desk.unsent c held, cursors, ?_, fun clear => ?_⟩, encode, ends⟩, shown⟩
  · rw [unsent, Direct.closed_unsent]
  · rw [unsent]
    exact (holds clear).unsent c

theorem Follows.sent (asks : Direct.request? c = some request) (opened : f.closed = false)
    (fits : request.misfit? = none) :
    ∃ left, Follows origin left (call c f tables).2.1 (call c f tables).2.2 (d.perform port c).2 ∧
      Fares pending (Server.repliesTo (.ofRequest origin request) tables) (call c f tables).1 (d.perform port c).1
        left := by
  obtain ⟨⟨scan, handled, interruptions, held, cursors, rfl, holds⟩, encode, ends⟩ := follows
  have own := (Server.repliesTo_encode_iff sound.rows).2 (Message.encodes_ofRequest origin fits).echoes
  have same := Server.repliesTo_scan (.ofRequest origin request) tables scan
  have rows := (sound_scan sound scan).rows
  rw [opened]
  by_cases clear : pending = []
  · subst clear
    obtain ⟨rfl, rfl⟩ := holds rfl
    obtain ⟨scan', later, answer, held', cursors', left, made, ending⟩ :=
      perform_clear asks rows fits origin handled interruptions none (Cursor.stepping f.stepping)
        (f.searches.map (Cursor.onto · none))
    rw [after_eq asks opened fits] at made
    rw [same] at ending
    rw [made]
    obtain ⟨rfl, some, suffix⟩ | ⟨on, rfl⟩ := ending
    · refine ⟨left, ⟨⟨_, _, _, _, _, rfl, fun none => absurd none some⟩, fun r inside => ?_, fun _ => ?_⟩,
        .interrupted rfl some suffix⟩
      · exact own r (suffix.subset inside)
      · exact (endsAnswer_repliesTo origin request tables).suffix suffix some
    · obtain ⟨shown, holds⟩ := shows_scan (Direct.shows_of_onAnswer (sound_scan sound scan) opened fits on)
      exact ⟨[], ⟨⟨_, _, _, _, _, rfl, fun _ => holds⟩, by simp, fun some => absurd rfl some⟩, .answered rfl shown⟩
  · obtain ⟨scan', later, answer, held', cursors', read, left, made, parts⟩ :=
      perform_behind asks rows fits encode (ends clear) origin handled interruptions none held cursors
    rw [same, after_eq asks opened fits] at made
    rw [made]
    have some := List.append_ne_nil_of_right_ne_nil left (Server.repliesTo_ne_nil (.ofRequest origin request) tables)
    refine ⟨_, ⟨⟨_, _, _, _, _, rfl, fun none => absurd none some⟩, ?_, fun _ => ?_⟩, .behind clear parts some⟩
    · exact List.forall_mem_append.2 ⟨fun r inside => encode r (parts ▸ List.mem_append_right read inside), own⟩
    · exact (endsAnswer_repliesTo origin request tables).behind left

end Calls

theorem Follows.perform {f : Finds} {d : Desk InterruptedClient} (follows : Follows origin pending f tables d)
    (sound : Sound tables f) (c : ClientCall) :
    ∃ left, Follows origin left (call c f tables).2.1 (call c f tables).2.2 (d.perform port c).2 ∧
      Fares pending (replies origin c f tables) (call c f tables).1 (d.perform port c).1 left := by
  cases asks : Direct.request? c with
  | none =>
    have none : replies origin c f tables = [] := by rw [replies, asks]
    obtain ⟨still, shown⟩ := follows.unasked sound asks
    exact ⟨pending, still, .unsent none shown⟩
  | some request =>
    by_cases closed : f.closed = true
    · have none : replies origin c f tables = [] := by rw [replies, asks]; exact if_pos (.inl closed)
      have unsent : call c f tables = _ := Direct.call_closed asks closed
      obtain ⟨still, shown⟩ := follows.refused asks .closed (by rw [unsent]) (by rw [unsent]; exact .closed)
        (by rw [closed]; exact fun _ _ _ => send_closed)
      exact ⟨pending, still, .unsent none fun _ => shown⟩
    replace closed : f.closed = false := by simpa using closed
    cases misfit : request.misfit? with
    | some fault =>
      have none : replies origin c f tables = [] := by rw [replies, asks]; exact if_pos (.inr (by simp [misfit]))
      have unsent : call c f tables = _ := Direct.call_misfit asks closed misfit
      obtain ⟨still, shown⟩ := follows.refused asks (.frame fault) (by rw [unsent]) (by rw [unsent]; exact .misfit fault)
        (by rw [closed]; exact fun _ _ _ => send_misfit (by rw [Message.misfit?_ofRequest, misfit]))
      exact ⟨pending, still, .unsent none fun _ => shown⟩
    | none =>
      have own : replies origin c f tables = Server.repliesTo (.ofRequest origin request) tables := by
        rw [replies, asks]
        exact if_neg (by simp [closed, misfit])
      rw [own]
      exact follows.sent sound asks closed misfit

/-- The calls that were made, and those that were interrupted, tell what is on its way. -/
theorem Follows.performAll {f : Finds} {d : Desk InterruptedClient} (follows : Follows origin pending f tables d)
    (sound : Sound tables f) (calls : List ClientCall) :
    ∃ left, Follows origin left (Direct.callAll calls f tables).1 (Direct.callAll calls f tables).2
        (d.performAll port calls).2 ∧
      Sound (Direct.callAll calls f tables).2 (Direct.callAll calls f tables).1 ∧
      left <:+ pending ++ Direct.repliesAll origin calls f tables ∧
      (left = [] ↔ pending = [] ∧ .fault (.channel .interrupted) ∉ (d.performAll port calls).1) := by
  induction calls generalizing pending f tables d with
  | nil =>
    exact ⟨pending, follows, sound, (List.append_nil pending).symm ▸ List.suffix_refl _, by simp [Desk.performAll]⟩
  | cons c calls ih =>
    obtain ⟨mid, next, fares⟩ := follows.perform sound c
    obtain ⟨left, last, sound', suffix, clear⟩ := ih next (sound.call c)
    refine ⟨left, last, sound', suffix.trans ?_, clear.trans ?_⟩
    · obtain ⟨read, parts⟩ := fares.suffix
      exact ⟨read, by rw [Direct.repliesAll, ← List.append_assoc, parts, List.append_assoc]⟩
    · rw [Desk.performAll, List.mem_cons, not_or, ← and_assoc]
      exact and_congr_left' fares.clear_iff

/-- As long as no call was interrupted, nothing is on its way to the client, and whatever it calls is given its own
answer or is interrupted. Once a call was interrupted there are always replies on their way, the oldest of all that
were not read; every later call reads some of those and leaves its own behind them. -/
theorem fares_after {origin : UInt32} (history : List StoreCall)
    (rows : (RecordStore.memory.performAll history {}).Encodes) (interruptions : List Bool) (before : List ClientCall)
    (c : ClientCall) :
    let tables := RecordStore.memory.performAll history {}
    let reached := Direct.callAll before {} tables
    let d := Desk.performAll port before (Desk.upon none none [] (awaiting origin false tables 0 [] interruptions))
    let made := d.2.perform port c
    ∃ pending left, d.2.client.world.inFlight = LoopServer.posted origin pending ∧
      pending <:+ Direct.repliesAll origin before {} tables ∧
      (pending = [] ↔ .fault (.channel .interrupted) ∉ d.1) ∧
      made.2.client.world.inFlight = LoopServer.posted origin left ∧
      Fares pending (replies origin c reached.1 reached.2) (call c reached.1 reached.2).1 made.1 left := by
  intro tables reached d made
  have start : Follows origin [] {} tables (Desk.upon none none [] (awaiting origin false tables 0 [] interruptions)) :=
    ⟨⟨tables.scan, 0, interruptions, none, [], rfl, fun _ => ⟨rfl, rfl⟩⟩, by simp, by simp⟩
  have sound : Sound tables {} := ⟨Store.keysHold_performAll history Store.keysHold_empty, rows, by simp, by simp⟩
  obtain ⟨pending, follows, sound', suffix, clear⟩ := start.performAll sound before
  obtain ⟨left, next, fares⟩ := follows.perform sound' c
  refine ⟨pending, left, follows.inFlight, suffix, ?_, next.inFlight, fares⟩
  simpa using clear

section Shifted

/-- Two entries are stored. -/
def twoStored : List StoreCall :=
  [.change (.putCatalog { catalog := "CD1", title := "Blue" }), .change (.putCatalog { catalog := "CD2", title := "Hejira" })]

theorem encodes_twoStored : (RecordStore.memory.performAll twoStored {}).Encodes := by
  have first : (Change.putCatalog { catalog := "CD1", title := "Blue" }).Encodes := CatalogEntry.encodes_iff.2 (by decide)
  have second : (Change.putCatalog { catalog := "CD2", title := "Hejira" }).Encodes :=
    CatalogEntry.encodes_iff.2 (by decide)
  exact (Store.encodes_empty.change first).change second

theorem fares_after_shifted :
    (RecordStore.memory.performAll twoStored {}).Encodes ∧
      let tables := RecordStore.memory.performAll twoStored {}
      let reached := Direct.callAll [.getCatalog "CD1"] {} tables
      let d := Desk.performAll port [.getCatalog "CD1"] (Desk.upon none none [] (awaiting 7 false tables 0 [] [false, true]))
      let made := d.2.perform port (.getCatalog "CD2")
      ∃ pending left, d.2.client.world.inFlight = LoopServer.posted 7 pending ∧
        pending <:+ Direct.repliesAll 7 [.getCatalog "CD1"] {} tables ∧
        (pending = [] ↔ .fault (.channel .interrupted) ∉ d.1) ∧
        made.2.client.world.inFlight = LoopServer.posted 7 left ∧
        Fares pending (replies 7 (.getCatalog "CD2") reached.1 reached.2)
          (call (.getCatalog "CD2") reached.1 reached.2).1 made.1 left :=
  ⟨encodes_twoStored, fares_after twoStored encodes_twoStored [false, true] [.getCatalog "CD1"] (.getCatalog "CD2")⟩

/-- A client is interrupted while it waits for the first entry, and then is given that one for the second. -/
theorem second_given_first :
    let tables := RecordStore.memory.performAll twoStored {}
    let d := Desk.performAll port [.getCatalog "CD1"] (Desk.upon none none [] (awaiting 7 false tables 0 [] [false, true]))
    d.1 = [.fault (.channel .interrupted)] ∧
      (d.2.perform port (.getCatalog "CD2")).1 = .catalog (some { catalog := "CD1", title := "Blue" }) := by
  decide +kernel

end Shifted

end InterruptedClient

end DiscCatalog
