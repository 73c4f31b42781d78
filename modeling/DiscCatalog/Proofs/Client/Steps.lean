import DiscCatalog.Client

namespace DiscCatalog

namespace Client

variable {σ : Type} {port : ClientPort σ}

section Drain

variable {asked r : Message} {spoolRoom : Option SystemFault} {spool : Spool} {room : Nat} {s t : σ}

theorem drain_failed {f : ChannelFault} (failed : port.replyReceive s = (.error f, t)) (room : Nat) :
    drain port asked spoolRoom (room + 1) spool s = ((.error (.channel f), spool), t) := by
  rw [drain]
  simp only [failed]

theorem drain_last (received : port.replyReceive s = (.ok r, t)) (about : r.operation = asked.operation)
    (status : r.status = .noMoreResults) : drain port asked spoolRoom (room + 1) spool s = ((.ok none, spool), t) := by
  rw [drain]
  simp only [received, about, status, ne_eq, not_true_eq_false, ↓reduceIte]

theorem drain_cutShort (received : port.replyReceive s = (.ok r, t)) (about : r.operation = asked.operation)
    (status : r.status = .failed) :
    drain port asked spoolRoom (room + 1) spool s = ((.ok (some r.diagnostic), spool), t) := by
  rw [drain]
  simp only [received, about, status, ne_eq, not_true_eq_false, ↓reduceIte]

theorem drain_kept (received : port.replyReceive s = (.ok r, t)) (about : r.operation = asked.operation)
    (status : r.status = .ok) :
    drain port asked spoolRoom (room + 1) spool s = drain port asked spoolRoom room (spool.push spoolRoom r.catalog) t := by
  rw [drain]
  simp only [received, about, status, ne_eq, not_true_eq_false, ↓reduceIte]

end Drain

section Exchange

variable {request : Request} {c : ClientState σ} {s sent begun last : σ}

theorem exchange_refused {fault : ChannelFault}
    (h : port.send (Message.ofRequest (port.origin c.world) request) c.world = (.error fault, s)) :
    exchange port request c = (.error (.channel fault), { c with world := s }) := by
  unfold exchange
  simp only [h]

theorem exchange_unsent {fault : ChannelFault}
    (h : port.send (Message.ofRequest (port.origin c.world) request) c.world = (.error fault, c.world)) :
    exchange port request c = (.error (.channel fault), c) := exchange_refused h

variable (taken : port.send (.ofRequest (port.origin c.world) request) c.world = (.ok (), sent))

include taken

theorem exchange_failed {f : ChannelFault} (failed : port.replyBegin sent = (.error f, last) ∨
      ∃ begun, port.replyBegin sent = (.ok (), begun) ∧ port.replyReceive begun = (.error f, last)) :
    exchange port request c = (.error (.channel f), { c with world := port.replyEnd last }) := by
  unfold exchange
  obtain unopened | ⟨begun, opened, lost⟩ := failed
  · simp only [taken, unopened]
  · simp only [taken, opened, lost]

theorem exchange_received {reply : Message} (opened : port.replyBegin sent = (.ok (), begun))
    (received : port.replyReceive begun = (.ok reply, last)) :
    exchange port request c =
      (single (.ofRequest (port.origin c.world) request) reply, { c with world := port.replyEnd last }) := by
  unfold exchange
  simp only [taken, opened, received]

end Exchange

def cursorOf (read : Ending × Spool) : Except ClientFault Cursor :=
  match read.1 with
  | .error f => .error f
  | .ok truncated => read.2.finish truncated

section Search

variable {query : String} {c : ClientState σ} {s sent begun last : σ}

theorem search_refused {fault : ChannelFault}
    (h : port.send (Message.ofRequest (port.origin c.world) (.findCatalog query)) c.world = (.error fault, s)) :
    search port query c = (.error (.channel fault), { c with world := s }) := by
  unfold search
  simp only [h]

theorem search_unsent {fault : ChannelFault}
    (h : port.send (Message.ofRequest (port.origin c.world) (.findCatalog query)) c.world =
      (.error fault, c.world)) :
    search port query c = (.error (.channel fault), c) := search_refused h

theorem search_unbegun {f : ChannelFault}
    (taken : port.send (.ofRequest (port.origin c.world) (.findCatalog query)) c.world = (.ok (), sent))
    (failed : port.replyBegin sent = (.error f, begun)) :
    search port query c = (.error (.channel f), { c with world := port.replyEnd begun }) := by
  unfold search
  simp only [taken, failed]

theorem search_begun {read : Ending × Spool}
    (taken : port.send (.ofRequest (port.origin c.world) (.findCatalog query)) c.world = (.ok (), sent))
    (opened : port.replyBegin sent = (.ok (), begun))
    (drained : drain port (.ofRequest (port.origin c.world) (.findCatalog query)) c.spoolRoom (port.backlog begun + 1) {}
      begun = (read, last)) :
    search port query c = (cursorOf read, { c with world := port.replyEnd last }) := by
  unfold search
  simp only [taken, opened, drained, cursorOf]
  cases read.1 <;> rfl

end Search

def firstOf : Except ClientFault Cursor → Except ClientFault (Option CatalogEntry) × Option Cursor
  | .error f => (.error f, none)
  | .ok cursor =>
    match cursor.next with
    | (.ok (some entry), cursor) => (.ok (some entry), if cursor.isExhausted then none else some cursor)
    | (answer, _) => (answer, none)

section Find

variable {query : String} {c : ClientState σ}

theorem findCatalog_searched {found : Except ClientFault Cursor} {t : σ}
    (searched : search port query { c with held := none } = (found, { c with world := t, held := none })) :
    findCatalog port query true c = ((firstOf found).1, { c with world := t, held := (firstOf found).2 }) := by
  unfold findCatalog
  simp only [↓reduceIte, searched]
  cases found with
  | error f => rfl
  | ok cursor =>
    simp only [firstOf]
    rcases cursor.next with ⟨f | none | entry, later⟩ <;> rfl

theorem findCatalog_held (port : ClientPort σ) (query : String) (cursor : Cursor) (c : ClientState σ) :
    findCatalog port query false { c with held := some cursor } =
      ((firstOf (.ok cursor)).1, { c with held := (firstOf (.ok cursor)).2 }) := by
  unfold findCatalog
  simp only [Bool.false_eq_true, ↓reduceIte, firstOf]
  rcases cursor.next with ⟨f | none | entry, later⟩ <;> rfl

theorem findCatalog_unsent {fault : ChannelFault}
    (h : port.send (Message.ofRequest (port.origin c.world) (.findCatalog query)) c.world =
      (.error fault, c.world)) :
    findCatalog port query true c = (.error (.channel fault), { c with held := none }) :=
  findCatalog_searched (search_unsent (c := { c with held := none }) h)

end Find

end Client

end DiscCatalog
