import DiscCatalog.Proofs.Channel.Loop

namespace DiscCatalog

namespace Request

def texts : Request → List (Slot × String)
  | createDatabase => []
  | getCatalog key | deleteCatalog key | findCatalog key => [(.catalog, key)]
  | getTrack key _ | deleteTrack key _ => [(.trackCatalog, key)]
  | addCatalog entry => entry.texts
  | addTrack entry => entry.texts

def misfit? (r : Request) : Option FrameFault := Slot.firstMisfit? r.texts

end Request

namespace Message

theorem misfit?_ofRequest (origin : UInt32) (r : Request) : (ofRequest origin r).misfit? = r.misfit? := by
  have blank : ∀ s : Slot, s.misfit? "" = none := fun s => Slot.misfit?_eq_none_iff.2 (Slot.fits_empty s)
  cases r <;>
    simp only [misfit?, Request.misfit?, texts, Request.texts, ofRequest, CatalogEntry.texts, TrackEntry.texts,
      CatalogEntry.ofKey, TrackEntry.ofKey, Slot.firstMisfit?, List.cons_append, List.nil_append,
      List.findSome?_cons, List.findSome?_nil, blank]

theorem encodes_ofRequest (origin : UInt32) {r : Request} (h : r.misfit? = none) :
    (ofRequest origin r).Encodes := misfit?_eq_none_iff.1 (by rw [misfit?_ofRequest, h])

theorem request_ofRequest (origin : UInt32) (r : Request) : (ofRequest origin r).request = r := by
  cases r <;> rfl

theorem origin_ofRequest (origin : UInt32) (r : Request) : (ofRequest origin r).origin = origin := by
  cases r <;> rfl

end Message

namespace LoopClient

variable (host : Host) (boxes : Mailboxes) (tables : Store) (handled : Nat) (origin : UInt32)

def awaiting (replies : List Message) : LoopClient × Hall LoopServer :=
  (⟨origin, false⟩, Hall.overLoop host boxes tables handled { replies := LoopServer.posted origin replies })

theorem send_misfit {m : Message} {fault : FrameFault} (h : m.misfit? = some fault) :
    (Hall.clientPort Hall.loop).send m (awaiting host boxes tables handled origin []) =
      (.error (.frame fault), awaiting host boxes tables handled origin []) := by
  have refused : send m (⟨origin, false⟩, {}) = (.error (.frame fault), ⟨origin, false⟩, {}) := by
    simp [send, stampedFrame_of_misfit origin h]
  change ((send m (⟨origin, false⟩, {})).1, (send m (⟨origin, false⟩, {})).2.1,
    Hall.overLoop host boxes tables handled (send m (⟨origin, false⟩, {})).2.2) = _
  rw [refused]
  rfl

theorem send_encodes {m : Message} (h : m.Encodes) :
    (Hall.clientPort Hall.loop).send m (awaiting host boxes tables handled m.origin []) =
      (.ok (), ⟨m.origin, false⟩, Hall.overLoop host boxes tables handled { requests := [m.frame] }) := by
  have taken : send m (⟨m.origin, false⟩, {}) = (.ok (), ⟨m.origin, false⟩, { requests := [m.frame] }) := by
    simp [send, stampedFrame_of_encodes h]
  change ((send m (⟨m.origin, false⟩, {})).1, (send m (⟨m.origin, false⟩, {})).2.1,
    Hall.overLoop host boxes tables handled (send m (⟨m.origin, false⟩, {})).2.2) = _
  rw [taken]

theorem replyBegin_settles (hall : Hall LoopServer) :
    (Hall.clientPort Hall.loop).replyBegin (⟨origin, false⟩, hall) =
      (.ok (), ⟨origin, false⟩, hall.settle Hall.loop) := rfl

theorem replyReceive_awaiting {r : Message} (h : r.Encodes) (rest : List Message) :
    (Hall.clientPort Hall.loop).replyReceive (awaiting host boxes tables handled origin (r :: rest)) =
      (.ok r, awaiting host boxes tables handled origin rest) := by
  have read : replyReceive (⟨origin, false⟩, { replies := LoopServer.posted origin (r :: rest) }) =
      (.ok r, ⟨origin, false⟩, { replies := LoopServer.posted origin rest }) := by
    simp [replyReceive, LoopServer.posted, messageOfRead_frame h]
  change ((replyReceive (⟨origin, false⟩, { replies := LoopServer.posted origin (r :: rest) })).1,
    (replyReceive (⟨origin, false⟩, { replies := LoopServer.posted origin (r :: rest) })).2.1,
    Hall.overLoop host boxes tables handled
      (replyReceive (⟨origin, false⟩, { replies := LoopServer.posted origin (r :: rest) })).2.2) = _
  rw [read]
  rfl

theorem length_le_backlog (replies : List Message) :
    replies.length ≤ (Hall.clientPort Hall.loop).backlog (awaiting host boxes tables handled origin replies) := by
  have lying : (LoopServer.posted origin replies).length = replies.length := List.length_map _
  exact lying.ge.trans (Nat.le_add_right _ _)

theorem yields_awaiting {replies : List Message} (encode : ∀ r ∈ replies, r.Encodes) :
    Client.Yields (Hall.clientPort Hall.loop) replies (awaiting host boxes tables handled origin replies)
      (awaiting host boxes tables handled origin []) := by
  induction replies with
  | nil => exact .nil _
  | cons r rest ih =>
    exact .cons (replyReceive_awaiting host boxes tables handled origin (encode r List.mem_cons_self) rest)
      (ih fun x hx => encode x (List.mem_cons_of_mem _ hx))

/-- What a client waits for after it sent a request: the replies, one after the other. -/
theorem replyBegin_sent (rows : tables.Encodes) {m : Message} (encodes : m.Encodes) :
    ∃ scan sent, (Hall.clientPort Hall.loop).send m (awaiting host boxes tables handled m.origin []) =
        (.ok (), sent) ∧
      (Hall.clientPort Hall.loop).replyBegin sent =
        (.ok (), awaiting host boxes { Server.storeAfter m tables with scan } (handled + 1) m.origin
          (Server.repliesTo m tables)) := by
  obtain ⟨scan, settled⟩ := Hall.settle_request host boxes handled encodes rows []
  refine ⟨scan, _, send_encodes host boxes tables handled encodes, ?_⟩
  rw [replyBegin_settles, settled, List.nil_append]
  rfl

end LoopClient

namespace Client

theorem single_of_ok {asked reply : Message} (operation : reply.operation = asked.operation)
    (status : reply.status = .ok) : single asked reply = .ok reply := by
  rw [single, if_neg (not_not_intro operation), status]

theorem single_of_failed {asked reply : Message} (operation : reply.operation = asked.operation)
    (status : reply.status = .failed) : single asked reply = .error (.rejected reply.diagnostic) := by
  rw [single, if_neg (not_not_intro operation), status]

variable (host : Host) (boxes : Mailboxes) (handled : Nat) (origin : UInt32) (held : Option Cursor)
  {tables : Store} {request : Request}

def resting (host : Host) (boxes : Mailboxes) (tables : Store) (handled : Nat) (connection : LoopClient)
    (held : Option Cursor) : ClientState (LoopClient × Hall LoopServer) where
  world := (connection, Hall.overLoop host boxes tables handled {})
  held := held

theorem exchange_single {reply : Message} (rows : tables.Encodes) (fits : request.misfit? = none)
    (single : Server.repliesTo (Message.ofRequest origin request) tables = [reply]) :
    ∃ scan, exchange (Hall.clientPort Hall.loop) request (resting host boxes tables handled ⟨origin, false⟩ held) =
      (Client.single (Message.ofRequest origin request) reply, resting host boxes
        { Server.storeAfter (Message.ofRequest origin request) tables with scan } (handled + 1) ⟨origin, false⟩ held) := by
  have encodes := Message.encodes_ofRequest origin fits
  have replyEncodes : reply.Encodes :=
    (Server.repliesTo_encode_iff rows).2 encodes.echoes reply (by rw [single]; exact List.mem_singleton_self _)
  obtain ⟨scan, sent, taken, answered⟩ := LoopClient.replyBegin_sent host boxes tables handled rows encodes
  rw [Message.origin_ofRequest] at taken answered
  rw [single] at answered
  exact ⟨scan, exchange_received (c := resting host boxes tables handled ⟨origin, false⟩ held) taken answered
    (LoopClient.replyReceive_awaiting _ _ _ _ _ replyEncodes [])⟩

theorem drain_awaiting {query : String} (rows : tables.Encodes)
    (encodes : (Message.ofRequest origin (.findCatalog query)).Encodes) (after : Store) :
    drain (Hall.clientPort Hall.loop) (Message.ofRequest origin (.findCatalog query)) none
        ((Hall.clientPort Hall.loop).backlog (LoopClient.awaiting host boxes after handled origin
          (Server.repliesTo (Message.ofRequest origin (.findCatalog query)) tables)) + 1) {}
        (LoopClient.awaiting host boxes after handled origin
          (Server.repliesTo (Message.ofRequest origin (.findCatalog query)) tables)) =
      ((.ok none, Spool.holding (tables.matching query)),
        LoopClient.awaiting host boxes after handled origin []) := by
  have yields := LoopClient.yields_awaiting host boxes after handled origin
    ((Server.repliesTo_encode_iff rows).2 encodes.echoes)
  have replies : Server.repliesTo (Message.ofRequest origin (.findCatalog query)) tables =
      (tables.matching query).map (Message.ofRequest origin (.findCatalog query)).found
        ++ [(Message.ofRequest origin (.findCatalog query)).noMore] := rfl
  have enough := Nat.lt_succ_of_le (LoopClient.length_le_backlog host boxes after handled origin
    (Server.repliesTo (Message.ofRequest origin (.findCatalog query)) tables))
  rw [replies] at yields enough ⊢
  rw [List.length_append, List.length_map] at enough
  exact drain_of_yields (Message.ofRequest origin (.findCatalog query))
    (Message.ofRequest origin (.findCatalog query)).noMore (Message.ofRequest origin (.findCatalog query)).found
    [] (fun e => ⟨rfl, rfl, rfl⟩) ⟨rfl, rfl⟩ (rows.matching query) (Nat.lt_of_succ_lt enough) yields

/-- A search gives a cursor over the matches, and the store is as before except for its scan. -/
theorem search_matching {query : String} (rows : tables.Encodes)
    (fits : (Request.findCatalog query).misfit? = none) :
    ∃ scan, search (Hall.clientPort Hall.loop) query (resting host boxes tables handled ⟨origin, false⟩ held) =
      (.ok (Cursor.onto (tables.matching query) none),
        resting host boxes { tables with scan } (handled + 1) ⟨origin, false⟩ held) := by
  have encodes := Message.encodes_ofRequest origin fits
  obtain ⟨scan, sent, taken, answered⟩ := LoopClient.replyBegin_sent host boxes tables handled rows encodes
  rw [Message.origin_ofRequest] at taken answered
  have drained := drain_awaiting host boxes (handled + 1) origin rows encodes
    { Server.storeAfter (Message.ofRequest origin (.findCatalog query)) tables with scan }
  have searched := search_begun (c := resting host boxes tables handled ⟨origin, false⟩ held) taken answered drained
  rw [cursorOf_holding] at searched
  exact ⟨scan, searched⟩

def told : Except StoreFault Unit → Except ClientFault Unit
  | .ok () => .ok ()
  | .error f => .error (.rejected (commandFailed f.message))

theorem exchange_change {c : Change} (rows : tables.Encodes) (fits : request.misfit? = none)
    (asks : Server.changeOf request = some c) :
    ∃ reply scan, exchange (Hall.clientPort Hall.loop) request (resting host boxes tables handled ⟨origin, false⟩ held) =
        (reply, resting host boxes { (RecordStore.memory.change c tables).2 with scan } (handled + 1) ⟨origin, false⟩ held)
      ∧ reply.map (fun _ => ()) = told (RecordStore.memory.change c tables).1 := by
  have read : Server.changeOf (Message.ofRequest origin request).request = some c := by
    rw [Message.request_ofRequest, asks]
  obtain ⟨scan, same⟩ := exchange_single host boxes handled origin held rows fits (Server.repliesTo_of_change read tables)
  rw [Server.storeAfter_of_change read] at same
  refine ⟨_, scan, same, ?_⟩
  cases outcome : tables.apply c with
  | ok after =>
    rw [RecordStore.memory_change_of_ok outcome, single_of_ok (by rfl) (by rfl)]
    rfl
  | error f =>
    have whole := Message.fitDiagnostic_of_fits
      (Server.fits_refusal asks (Message.encodes_ofRequest origin fits) outcome)
    rw [RecordStore.memory_change_of_error outcome, single_of_failed (by rfl) (by rfl)]
    exact congrArg (fun text => Except.error (ClientFault.rejected text)) whole

theorem getCatalog_resting {key : String} (keys : tables.KeysHold) (rows : tables.Encodes)
    (fits : (Request.getCatalog key).misfit? = none) :
    ∃ scan, getCatalog (Hall.clientPort Hall.loop) key (resting host boxes tables handled ⟨origin, false⟩ held) =
      (.ok (tables.catalog? key), resting host boxes { tables with scan } (handled + 1) ⟨origin, false⟩ held) := by
  obtain ⟨scan, same⟩ := exchange_single host boxes handled origin held rows fits rfl
  refine ⟨scan, ?_⟩
  rw [getCatalog, same, single_of_ok (by rfl) (by rfl)]
  exact Prod.ext (congrArg Except.ok (keys.present?_catalog key)) rfl

theorem getTrack_resting {key : String} {number : Int32} (keys : tables.KeysHold) (rows : tables.Encodes)
    (fits : (Request.getTrack key number).misfit? = none) :
    ∃ scan, getTrack (Hall.clientPort Hall.loop) key number (resting host boxes tables handled ⟨origin, false⟩ held) =
      (.ok (tables.track? key number), resting host boxes { tables with scan } (handled + 1) ⟨origin, false⟩ held) := by
  obtain ⟨scan, same⟩ := exchange_single host boxes handled origin held rows fits rfl
  refine ⟨scan, ?_⟩
  rw [getTrack, same, single_of_ok (by rfl) (by rfl)]
  exact Prod.ext (congrArg Except.ok (keys.present?_track key number)) rfl

theorem findCatalog_first {query : String} (rows : tables.Encodes)
    (fits : (Request.findCatalog query).misfit? = none) :
    ∃ scan, findCatalog (Hall.clientPort Hall.loop) query true (resting host boxes tables handled ⟨origin, false⟩ held) =
      (.ok (tables.matching query).head?, resting host boxes { tables with scan } (handled + 1) ⟨origin, false⟩
        (Cursor.stepping (tables.matching query).tail)) := by
  obtain ⟨scan, searched⟩ := search_matching host boxes handled origin none rows fits
  have stepped := findCatalog_searched (c := resting host boxes tables handled ⟨origin, false⟩ held) searched
  rw [firstOf_onto (rows.matching query) none, ← List.head?_eq_getElem?] at stepped
  exact ⟨scan, stepped⟩

end Client

end DiscCatalog
