import DiscCatalog.Client.Call
import DiscCatalog.Proofs.Client.Spooled
import DiscCatalog.Proofs.Server.Replies
import DiscCatalog.Proofs.Session.Refinement

namespace DiscCatalog

namespace Client

def Stops (asked reply : Message) : Prop := reply.operation ≠ asked.operation ∨ reply.status ≠ .ok

instance (asked reply : Message) : Decidable (Stops asked reply) :=
  inferInstanceAs (Decidable (reply.operation ≠ asked.operation ∨ reply.status ≠ .ok))

def readReplies (asked : Message) (spoolRoom : Option SystemFault) : Spool → List Message → Ending × Spool
  | spool, [] => (.ok none, spool)
  | spool, reply :: rest =>
    if reply.operation ≠ asked.operation then (.error (unexpected asked reply), spool)
    else match reply.status with
      | .noMoreResults => (.ok none, spool)
      | .failed => (.ok (some reply.diagnostic), spool)
      | .ok => readReplies asked spoolRoom (spool.push spoolRoom reply.catalog) rest

section Drain

variable {σ : Type} {port : ClientPort σ} {asked reply : Message} {spoolRoom : Option SystemFault} {spool : Spool}
  {s t : σ}

/-- Reading one reply ends the reading, or keeps its entry and goes on. -/
theorem drain_received (received : port.replyReceive s = (.ok reply, t)) (room : Nat) :
    drain port asked spoolRoom (room + 1) spool s =
      if Stops asked reply then (readReplies asked spoolRoom spool [reply], t)
      else drain port asked spoolRoom room (spool.push spoolRoom reply.catalog) t := by
  rw [drain, readReplies]
  simp only [received]
  by_cases other : reply.operation ≠ asked.operation
  · have stops : Stops asked reply := .inl other
    rw [if_pos other, if_pos stops, if_pos other]
  · rw [if_neg other, if_neg other]
    cases status : reply.status with
    | ok =>
      have goes : ¬ Stops asked reply := not_or.2 ⟨other, not_not.2 status⟩
      rw [if_neg goes]
    | failed | noMoreResults =>
      have stops : Stops asked reply := .inr (by simp [status])
      rw [if_pos stops]

theorem readReplies_goes (goes : ¬ Stops asked reply) (rest : List Message) :
    readReplies asked spoolRoom spool (reply :: rest) =
      readReplies asked spoolRoom (spool.push spoolRoom reply.catalog) rest := by
  obtain ⟨same, ok⟩ := not_or.1 goes
  rw [readReplies, if_neg same, not_not.1 ok]

end Drain

def Whole (asked : Message) (replies : List Message) : Prop :=
  ∃ front last, replies = front ++ [last] ∧ (∀ r ∈ front, ¬ Stops asked r) ∧ Stops asked last

variable {σ : Type} {port : ClientPort σ}

theorem drain_whole {asked : Message} {spoolRoom : Option SystemFault} {replies : List Message} {room : Nat} {spool : Spool}
    {s t : σ} (whole : Whole asked replies) (enough : replies.length ≤ room) (yields : Yields port replies s t) :
    drain port asked spoolRoom room spool s = (readReplies asked spoolRoom spool replies, t) := by
  obtain ⟨front, last, rfl, goes, stops⟩ := whole
  induction front generalizing spool room s with
  | nil =>
    cases yields with
    | cons received rest =>
      cases rest
      cases room with
      | zero => cases enough
      | succ room => rw [drain_received received, if_pos stops, List.nil_append]
  | cons r front ih =>
    rw [List.cons_append] at yields ⊢
    cases yields with
    | cons received rest =>
      cases room with
      | zero => cases enough
      | succ room =>
        have goes := List.forall_mem_cons.1 goes
        rw [drain_received received, if_neg goes.1, readReplies_goes goes.1,
          ih (Nat.le_of_succ_le_succ enough) rest goes.2]

/-- A request is sent, and these are the replies that are read then, to the end of the session. -/
def Answered (port : ClientPort σ) (asked : Message) (replies : List Message) (s t : σ) : Prop :=
  ∃ sent begun read, port.send asked s = (.ok (), sent) ∧ port.replyBegin sent = (.ok (), begun) ∧
    Yields port replies begun read ∧ replies.length ≤ port.backlog begun + 1 ∧ port.replyEnd read = t

theorem exchange_answered {request : Request} {reply : Message} {c : ClientState σ} {t : σ}
    (answered : Answered port (.ofRequest (port.origin c.world) request) [reply] c.world t) :
    exchange port request c = (single (.ofRequest (port.origin c.world) request) reply, { c with world := t }) := by
  obtain ⟨sent, begun, read, taken, opened, yields, -, rfl⟩ := answered
  cases yields with
  | cons received rest =>
    cases rest
    exact exchange_received taken opened received

theorem search_answered {query : String} {replies : List Message} {c : ClientState σ} {t : σ}
    (whole : Whole (.ofRequest (port.origin c.world) (.findCatalog query)) replies)
    (answered : Answered port (.ofRequest (port.origin c.world) (.findCatalog query)) replies c.world t) :
    search port query c =
      (cursorOf (readReplies (.ofRequest (port.origin c.world) (.findCatalog query)) c.spoolRoom {} replies),
        { c with world := t }) := by
  obtain ⟨sent, begun, read, taken, opened, yields, enough, rfl⟩ := answered
  exact search_begun taken opened (drain_whole whole enough yields)

theorem whole_repliesTo (origin : UInt32) (query : String) (tables : Store) :
    Whole (.ofRequest origin (.findCatalog query))
      (Server.repliesTo (.ofRequest origin (.findCatalog query)) tables) := by
  refine ⟨_, _, rfl, ?_, .inr (by simp [Message.noMore, Message.reply])⟩
  intro r found
  obtain ⟨e, -, rfl⟩ := List.mem_map.1 found
  exact not_or.2 ⟨not_not.2 rfl, not_not.2 rfl⟩

def found (origin : UInt32) (query : String) (room : Option SystemFault) (tables : Store) : Except ClientFault Cursor :=
  cursorOf (readReplies (.ofRequest origin (.findCatalog query)) room {}
    (Server.repliesTo (.ofRequest origin (.findCatalog query)) tables))

end Client

namespace Server

theorem repliesTo_single {request : Request} (single : ∀ query, request ≠ .findCatalog query) (origin : UInt32)
    (tables : Store) : ∃ reply, repliesTo (.ofRequest origin request) tables = [reply] := by
  cases request with
  | findCatalog query => exact absurd rfl (single query)
  | _ => exact ⟨_, rfl⟩

end Server

namespace Desk

/-- What somebody has before them at a client, beside the channel. -/
def upon {σ : Type} (room : Option SystemFault) (held : Option Cursor) (cursors : List Cursor) (world : σ) : Desk σ where
  client := { world, spoolRoom := room, held }
  cursors := cursors

variable {c : ClientCall} {request : Request}

variable {σ : Type} {port : ClientPort σ} {s t : σ} {room : Option SystemFault} {held : Option Cursor}
  {cursors : List Cursor}

theorem onClient_upon {α : Type} (value : α → ClientAnswer) {f : ClientState σ → Except ClientFault α × ClientState σ}
    {outcome : Except ClientFault α} {held' : Option Cursor}
    (done : f { world := s, spoolRoom := room, held } = (outcome, { world := t, spoolRoom := room, held := held' })) :
    (upon room held cursors s).onClient value f = (answerOf value outcome, upon room held' cursors t) := by
  unfold onClient upon
  simp only [done]

/-- A call that asks the server for something is a search or an exchange. -/
theorem perform_cases {c : ClientCall} {request : Request} (asks : Direct.request? c = some request) :
    (∃ query, request = .findCatalog query ∧ (c = .find query true ∨ c = .search query)) ∨
      (∀ query, request ≠ .findCatalog query) ∧ ∃ value : Message → ClientAnswer, ∀ {σ : Type} (port : ClientPort σ)
        (d : Desk σ), d.perform port c = d.onClient value (Client.exchange port request) := by
  have whole {α : Type} (part : Message → α) (value : α → ClientAnswer) {σ : Type} (port : ClientPort σ) (d : Desk σ) :
      d.onClient value (fun s => ((Client.exchange port request s).1.map part, (Client.exchange port request s).2)) =
        d.onClient (fun reply => value (part reply)) (Client.exchange port request) := by
    unfold onClient
    dsimp only
    cases (Client.exchange port request d.client).1 <;> rfl
  cases c with
  | createDatabase | addCatalog | addTrack | deleteCatalog | deleteTrack =>
    cases asks
    exact .inr ⟨fun _ => by simp, _, whole (fun _ => ()) fun _ => .done⟩
  | getCatalog =>
    cases asks
    exact .inr ⟨fun _ => by simp, _, whole (·.catalog.present?) .catalog⟩
  | getTrack =>
    cases asks
    exact .inr ⟨fun _ => by simp, _, whole (·.track.present?) .track⟩
  | find query newSearch =>
    cases newSearch with
    | true =>
      cases asks
      exact .inl ⟨query, rfl, .inl rfl⟩
    | false => cases asks
  | search query =>
    cases asks
    exact .inl ⟨query, rfl, .inr rfl⟩
  | close | emptyCursor | next | look | collect | take => cases asks

theorem find_upon {query : String} {found : Except ClientFault Cursor}
    (searched : Client.search port query { world := s, spoolRoom := room } = (found, { world := t, spoolRoom := room })) :
    (upon room held cursors s).perform port (.find query true) =
      (answerOf .catalog (Client.firstOf found).1, upon room (Client.firstOf found).2 cursors t) :=
  onClient_upon .catalog (f := Client.findCatalog port query true) (Client.findCatalog_searched searched)

theorem search_upon {query : String} {found : Except ClientFault Cursor}
    (searched : Client.search port query { world := s, spoolRoom := room, held } =
      (found, { world := t, spoolRoom := room, held })) :
    (upon room held cursors s).perform port (.search query) =
      (answerOf .cursor found, upon room held (cursors ++ found.toOption.toList) t) := by
  simp only [perform, upon, searched]
  cases found with
  | error f => simp [answerOf, Except.toOption]
  | ok c => rfl

def OnAnswer (c : ClientCall) (request : Request) (origin : UInt32) (tables : Store) (room : Option SystemFault)
    (held : Option Cursor) (cursors : List Cursor) (answer : ClientAnswer) (held' : Option Cursor)
    (cursors' : List Cursor) : Prop :=
  ∀ {σ : Type} (port : ClientPort σ) (s t : σ), port.origin s = origin →
    Client.Answered port (.ofRequest origin request) (Server.repliesTo (.ofRequest origin request) tables) s t →
    (upon room held cursors s).perform port c = (answer, upon room held' cursors' t)

theorem onAnswer_exchange {c : ClientCall} {request : Request} {value : Message → ClientAnswer}
    (exchanged : ∀ {σ : Type} (port : ClientPort σ) (d : Desk σ),
      d.perform port c = d.onClient value (Client.exchange port request))
    {origin : UInt32} {tables : Store} {reply : Message}
    (replies : Server.repliesTo (.ofRequest origin request) tables = [reply]) :
    OnAnswer c request origin tables room held cursors
      (answerOf value (Client.single (.ofRequest origin request) reply)) held cursors := by
  intro σ port s t same answered
  subst same
  rw [replies] at answered
  rw [exchanged]
  exact onClient_upon value (Client.exchange_answered answered)

theorem onAnswer_find (origin : UInt32) (query : String) (tables : Store) :
    OnAnswer (.find query true) (.findCatalog query) origin tables room held cursors
      (answerOf .catalog (Client.firstOf (Client.found origin query room tables)).1)
      (Client.firstOf (Client.found origin query room tables)).2 cursors := by
  intro σ port s t same answered
  subst same
  exact find_upon (Client.search_answered (Client.whole_repliesTo _ query tables) answered)

theorem onAnswer_search (origin : UInt32) (query : String) (tables : Store) :
    OnAnswer (.search query) (.findCatalog query) origin tables room held cursors
      (answerOf .cursor (Client.found origin query room tables)) held
      (cursors ++ (Client.found origin query room tables).toOption.toList) := by
  intro σ port s t same answered
  subst same
  exact search_upon (Client.search_answered (Client.whole_repliesTo _ query tables) answered)

def unsent (c : ClientCall) (held : Option Cursor) : Option Cursor :=
  match c with
  | .find _ true => none
  | _ => held

theorem perform_refused {c : ClientCall} {request : Request} {fault : ChannelFault}
    (asks : Direct.request? c = some request)
    (refused : port.send (.ofRequest (port.origin s) request) s = (.error fault, s)) :
    (upon room held cursors s).perform port c = (.fault (.channel fault), upon room (unsent c held) cursors s) := by
  obtain ⟨query, rfl, rfl | rfl⟩ | ⟨single, value, exchanged⟩ := perform_cases asks
  · exact find_upon (Client.search_unsent refused)
  · rw [search_upon (Client.search_unsent refused)]
    simp [answerOf, Except.toOption, unsent]
  · have kept : unsent c held = held := by
      unfold unsent
      split
      · exact absurd (Option.some.inj asks).symm (single _)
      · rfl
    rw [exchanged, kept]
    exact onClient_upon value (Client.exchange_unsent refused)

theorem onCursor_upon (action : Cursor → ClientAnswer × Cursor) (i : Nat) (room : Option SystemFault)
    (held : Option Cursor) (cursors : List Cursor) :
    ∃ answer cursors', ∀ {σ : Type} (s : σ),
      (upon room held cursors s).onCursor i action = (answer, upon room held cursors' s) := by
  cases there : cursors[i]? with
  | none => exact ⟨.noCursor, cursors, fun s => by simp only [onCursor, upon, there]⟩
  | some c =>
    exact ⟨(action c).1, cursors.set i (action c).2, fun s => by simp only [onCursor, upon, there]⟩

theorem perform_unasked {c : ClientCall} (asks : Direct.request? c = none) (stays : c ≠ .close)
    (room : Option SystemFault) (held : Option Cursor) (cursors : List Cursor) :
    ∃ answer held' cursors', ∀ {σ : Type} (port : ClientPort σ) (s : σ),
      (upon room held cursors s).perform port c = (answer, upon room held' cursors' s) := by
  cases c with
  | createDatabase | getCatalog | getTrack | addCatalog | addTrack | deleteCatalog | deleteTrack | search => cases asks
  | close => exact absurd rfl stays
  | emptyCursor => exact ⟨_, held, cursors ++ [.empty], fun _ _ => rfl⟩
  | next i =>
    obtain ⟨answer, cursors', done⟩ := onCursor_upon (fun c => (answerOf .catalog c.next.1, c.next.2)) i room held cursors
    exact ⟨answer, held, cursors', fun _ s => done s⟩
  | look i =>
    obtain ⟨answer, cursors', done⟩ := onCursor_upon (fun c => (.cursor c, c)) i room held cursors
    exact ⟨answer, held, cursors', fun _ s => done s⟩
  | collect i =>
    obtain ⟨answer, cursors', done⟩ :=
      onCursor_upon (fun c => (answerOf .entries c.collect.1, c.collect.2)) i room held cursors
    exact ⟨answer, held, cursors', fun _ s => done s⟩
  | take i count =>
    obtain ⟨answer, cursors', done⟩ :=
      onCursor_upon (fun c => (answerOf .entries (c.take count).1, (c.take count).2)) i room held cursors
    exact ⟨answer, held, cursors', fun _ s => done s⟩
  | find query newSearch =>
    cases newSearch with
    | true => cases asks
    | false =>
      cases held with
      | none => exact ⟨.catalog none, none, cursors, fun _ _ => rfl⟩
      | some cursor =>
        refine ⟨answerOf .catalog (Client.firstOf (.ok cursor)).1, (Client.firstOf (.ok cursor)).2, cursors,
          fun port s => ?_⟩
        exact onClient_upon .catalog (Client.findCatalog_held port query cursor { world := s, spoolRoom := room })

theorem perform_close (port : ClientPort σ) (s : σ) :
    (upon room held cursors s).perform port .close = (.done, upon room none cursors (port.close s)) := rfl

end Desk

theorem LoopClient.answered (host : Host) (boxes : Mailboxes) (handled : Nat) {m : Message} {tables : Store}
    (rows : tables.Encodes) (encodes : m.Encodes) :
    ∃ scan, Client.Answered (Hall.clientPort Hall.loop) m (Server.repliesTo m tables)
      (awaiting host boxes tables handled m.origin [])
      (awaiting host boxes { Server.storeAfter m tables with scan } (handled + 1) m.origin []) := by
  obtain ⟨scan, sent, taken, begun⟩ := replyBegin_sent host boxes tables handled rows encodes
  exact ⟨scan, sent, _, _, taken, begun,
    yields_awaiting _ _ _ _ _ ((Server.repliesTo_encode_iff rows).2 encodes.echoes),
    (length_le_backlog _ _ _ _ _ _).trans (Nat.le_succ _), rfl⟩

namespace Direct

variable {tables : Store} {f : Finds} {c : ClientCall} {request : Request} {origin : UInt32} {answer : ClientAnswer}
  {held : Option Cursor} {cursors : List Cursor}

def Finds.Held (f : Finds) (held : Option Cursor) (cursors : List Cursor) : Prop :=
  held = Cursor.stepping f.stepping ∧ cursors = f.searches.map (Cursor.onto · none)

/-- What a call comes to beside a server on the channel in memory is what it comes to on the store itself. -/
theorem shows_of_loop (sound : Sound tables f) (origin : UInt32) (host : Host) (boxes : Mailboxes) (handled : Nat)
    {world : LoopClient × Hall LoopServer}
    (made : (Desk.upon none (Cursor.stepping f.stepping) (f.searches.map (Cursor.onto · none))
        (LoopClient.mk origin f.closed, Hall.overLoop host boxes tables handled {})).perform (Hall.clientPort Hall.loop) c =
      (answer, Desk.upon none held cursors world)) :
    Shows (.answered answer) (call c f tables).1 ∧ (call c f tables).2.1.Held held cursors := by
  have agrees : Agrees host boxes origin
      ((f.desk host boxes tables handled origin).perform (Hall.clientPort Hall.loop) c) (call c f tables) :=
    agrees_call sound.keys sound.rows sound.finds c
  obtain ⟨answer', scan, handled', same, shown⟩ := agrees
  cases made.symm.trans same
  exact ⟨shown, rfl, rfl⟩

theorem shows_of_onAnswer (sound : Sound tables f) (opened : f.closed = false)
    (fits : request.misfit? = none) (on : Desk.OnAnswer c request origin tables none (Cursor.stepping f.stepping)
      (f.searches.map (Cursor.onto · none)) answer held cursors) :
    Shows (.answered answer) (call c f tables).1 ∧ (call c f tables).2.1.Held held cursors := by
  obtain ⟨scan, answered⟩ := LoopClient.answered default default 0 sound.rows (Message.encodes_ofRequest origin fits)
  rw [Message.origin_ofRequest] at answered
  have made := on (Hall.clientPort Hall.loop) _ _ rfl answered
  have here : LoopClient.awaiting default default tables 0 origin [] =
      (LoopClient.mk origin f.closed, Hall.overLoop default default tables 0 {}) := by
    rw [opened]
    rfl
  rw [here] at made
  exact shows_of_loop sound origin default default 0 made

theorem Finds.Held.unsent (held' : f.Held held cursors) (c : ClientCall) :
    (Direct.unsent c f).Held (Desk.unsent c held) cursors := by
  cases c with
  | find query newSearch =>
    cases newSearch with
    | true => exact ⟨rfl, held'.2⟩
    | false => exact held'
  | _ => exact held'

theorem call_closed (asks : request? c = some request) (closed : f.closed = true) :
    call c f tables = (.closed, unsent c f, tables) := by
  simp only [call, asks, closed, ↓reduceIte]

theorem call_misfit (asks : request? c = some request) (opened : f.closed = false) {fault : FrameFault}
    (misfit : request.misfit? = some fault) : call c f tables = (.misfit fault, unsent c f, tables) := by
  simp only [call, asks, opened, misfit, Bool.false_eq_true, ↓reduceIte]

theorem closed_unsent (c : ClientCall) (f : Finds) : (unsent c f).closed = f.closed := by
  unfold unsent
  split <;> rfl

theorem call_sent (tables : Store) (asks : request? c = some request) (opened : f.closed = false) (fits : request.misfit? = none)
    (origin : UInt32) : (call c f tables).2.2 = Server.storeAfter (.ofRequest origin request) tables ∧
      (call c f tables).2.1.closed = false := by
  have sent : call c f tables = perform c f tables := by
    simp only [call, asks, opened, fits, Bool.false_eq_true, ↓reduceIte]
  rw [sent]
  cases c with
  | createDatabase | getCatalog | getTrack | addCatalog | addTrack | deleteCatalog | deleteTrack | search =>
    cases asks
    exact ⟨rfl, opened⟩
  | find query newSearch =>
    cases newSearch with
    | true =>
      cases asks
      exact ⟨rfl, opened⟩
    | false => cases asks
  | close | emptyCursor | next | look | collect | take => cases asks

theorem call_unasked (f : Finds) (tables : Store) (asks : request? c = none) (stays : c ≠ .close) :
    (call c f tables).2.2 = tables ∧ (call c f tables).2.1.closed = f.closed := by
  have onSearch (i : Nat) (take : List CatalogEntry → Outcome × List CatalogEntry) :
      (onSearch i take f tables).2.2 = tables ∧ (onSearch i take f tables).2.1.closed = f.closed := by
    unfold Direct.onSearch
    cases f.searches[i]? <;> exact ⟨rfl, rfl⟩
  simp only [call, asks]
  cases c with
  | createDatabase | getCatalog | getTrack | addCatalog | addTrack | deleteCatalog | deleteTrack | search => cases asks
  | close => exact absurd rfl stays
  | find query newSearch =>
    cases newSearch with
    | true => cases asks
    | false => exact ⟨rfl, rfl⟩
  | emptyCursor => exact ⟨rfl, rfl⟩
  | next | look | collect | take => exact onSearch _ _

end Direct

end DiscCatalog
