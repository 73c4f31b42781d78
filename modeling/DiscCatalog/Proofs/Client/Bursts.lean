import DiscCatalog.Proofs.Client.Reading

namespace DiscCatalog

namespace Spool

variable {kept : List CatalogEntry} {room : Option SystemFault}

theorem push_faultless {e : CatalogEntry} (faultless : ((holding kept).push room e).fault = none) :
    e.Encodes ∧ (holding kept).push room e = holding (kept ++ [e]) := by
  cases written : e.toBytes with
  | error f =>
    rw [push, written] at faultless
    cases faultless
  | ok bytes =>
    have fits : e.Encodes := ⟨bytes, written⟩
    refine ⟨fits, ?_⟩
    rw [← push_holding fits]
    rw [push, written] at faultless ⊢
    rw [push, written]
    cases none : (holding kept).written with
    | some before => rfl
    | none =>
      rw [none] at faultless
      cases room with
      | none => rfl
      | some f => cases faultless

theorem pushAll_faultless {entries : List CatalogEntry} (faultless : ((holding kept).pushAll room entries).fault = none) :
    (∀ e ∈ entries, e.Encodes) ∧ (holding kept).pushAll room entries = holding (kept ++ entries) := by
  induction entries generalizing kept with
  | nil => exact ⟨by simp, by rw [List.append_nil]; rfl⟩
  | cons e entries ih =>
    have pushed : (holding kept).pushAll room (e :: entries) = ((holding kept).push room e).pushAll room entries := rfl
    rw [pushed] at faultless ⊢
    cases first : ((holding kept).push room e).fault with
    | some f =>
      rw [fault_pushAll first] at faultless
      cases faultless
    | none =>
      obtain ⟨fits, same⟩ := push_faultless first
      rw [same] at faultless ⊢
      obtain ⟨fit, all⟩ := ih faultless
      exact ⟨List.forall_mem_cons.2 ⟨fits, fit⟩, by rw [all, List.append_assoc]; rfl⟩

end Spool

namespace Client

variable {σ : Type}

def Brings (port : ClientPort σ) (s : σ) (entries : List CatalogEntry) (truncated : Option String) : Prop :=
  (∀ k (below : k < entries.length), ∃ r, port.item s k = .ok r ∧ r.operation = .findCatalog ∧ r.status = .ok ∧
      r.catalog = entries[k]) ∧
    ∃ last, port.item s entries.length = .ok last ∧ last.operation = .findCatalog ∧ last.status ≠ .ok ∧
      truncated = if last.status = .failed then some last.diagnostic else none

/-- What a search is brought once its request is sent and its session begun. -/
def Burst (port : ClientPort σ) (query : String) (s : σ) (entries : List CatalogEntry) (truncated : Option String) : Prop :=
  ∃ sent begun, port.send (.ofRequest (port.origin s) (.findCatalog query)) s = (.ok (), sent) ∧
    port.replyBegin sent = (.ok (), begun) ∧ Brings port begun entries truncated

variable {port : ClientPort σ} {asked r : Message} {room : Option SystemFault} {s t u : σ} {left : Nat}
  {entries : List CatalogEntry} {truncated : Option String} {spool spool' : Spool}

theorem Brings.cons (received : port.replyReceive s = (.ok r, t)) (search : asked.operation = .findCatalog)
    (goes : ¬ Stops asked r) (brings : Brings port t entries truncated) :
    Brings port s (r.catalog :: entries) truncated := by
  obtain ⟨each, last, ended, ending⟩ := brings
  obtain ⟨about, status⟩ := not_or.1 goes
  refine ⟨fun k below => ?_, last, ?_, ending⟩
  · cases k with
    | zero => exact ⟨r, congrArg Prod.fst received, (not_not.1 about).trans search, not_not.1 status, rfl⟩
    | succ k =>
      rw [ClientPort.item_succ received]
      exact each k (Nat.lt_of_succ_lt_succ below)
  · rw [List.length_cons, ClientPort.item_succ received]
    exact ended

theorem brings_last (received : port.replyReceive s = (.ok r, t)) (search : asked.operation = .findCatalog)
    (stops : Stops asked r) (read : (readReplies asked room spool [r]).1 = .ok truncated) : Brings port s [] truncated := by
  have about : r.operation = asked.operation := by
    by_contra other
    rw [readReplies, if_pos other] at read
    cases read
  refine ⟨fun k below => absurd below (Nat.not_lt_zero k), r, congrArg Prod.fst received, about.trans search,
    stops.resolve_left (not_not.2 about), ?_⟩
  rw [readReplies, if_neg (not_not.2 about)] at read
  cases status : r.status with
  | ok | noMoreResults | failed =>
    rw [status] at read
    cases read
    rfl

theorem spool_readReplies (stops : Stops asked r) : (readReplies asked room spool [r]).2 = spool := by
  rw [readReplies]
  split
  · rfl
  · next about =>
    have status := stops.resolve_left about
    cases given : r.status with
    | ok => exact absurd given status
    | failed | noMoreResults => rfl

/-- A reading that comes to an end has spooled the entries that it was brought. -/
theorem brings_of_drain (search : asked.operation = .findCatalog)
    (drained : drain port asked room left spool s = ((.ok truncated, spool'), u)) :
    ∃ entries, Brings port s entries truncated ∧ spool' = spool.pushAll room entries := by
  induction left generalizing spool s with
  | zero => cases drained
  | succ left ih =>
    rcases received : port.replyReceive s with ⟨fault | r, t⟩
    · rw [drain_failed received] at drained
      cases drained
    · rw [drain_received received] at drained
      by_cases stops : Stops asked r
      · rw [if_pos stops] at drained
        have read := congrArg Prod.fst drained
        exact ⟨[], brings_last received search stops (congrArg Prod.fst read),
          (congrArg Prod.snd read).symm.trans (spool_readReplies stops)⟩
      · rw [if_neg stops] at drained
        obtain ⟨entries, brings, same⟩ := ih drained
        exact ⟨r.catalog :: entries, brings.cons received search stops, same⟩

/-- A search that gives a cursor gives one over the entries that it was brought, all of which fit their frames. -/
theorem search_eq_ok {query : String} {c c' : ClientState σ} {cursor : Cursor}
    (found : search port query c = (.ok cursor, c')) :
    ∃ entries, Burst port query c.world entries cursor.truncated ∧ (∀ e ∈ entries, e.Encodes) ∧
      cursor = .onto entries cursor.truncated := by
  rcases sent : port.send (.ofRequest (port.origin c.world) (.findCatalog query)) c.world with ⟨fault | ⟨⟩, asked⟩
  · rw [search_refused sent] at found
    cases found
  rcases begun : port.replyBegin asked with ⟨fault | ⟨⟩, opened⟩
  · rw [search_unbegun sent begun] at found
    cases found
  rcases drained : drain port (.ofRequest (port.origin c.world) (.findCatalog query)) c.spoolRoom (port.backlog opened + 1) {}
    opened with ⟨⟨ending, spool⟩, last⟩
  rw [search_begun sent begun drained] at found
  have read : cursorOf (ending, spool) = .ok cursor := congrArg Prod.fst found
  cases ending with
  | error f => cases read
  | ok truncated =>
    have search : (Message.ofRequest (port.origin c.world) (.findCatalog query)).operation = .findCatalog := rfl
    obtain ⟨entries, brings, rfl⟩ := brings_of_drain search drained
    have faultless : (Spool.pushAll c.spoolRoom entries (.holding [])).fault = none := by
      cases broken : (Spool.pushAll c.spoolRoom entries {}).fault with
      | none => exact broken
      | some f =>
        simp only [cursorOf, Spool.finish, broken] at read
        cases read
    obtain ⟨fit, all⟩ := Spool.pushAll_faultless faultless
    have same : Cursor.onto entries truncated = cursor := by
      have start : ({} : Spool) = .holding [] := rfl
      rw [start, all, List.nil_append, cursorOf_holding] at read
      exact Except.ok.inj read
    subst same
    exact ⟨entries, ⟨asked, opened, sent, begun, brings⟩, fit, rfl⟩

end Client

end DiscCatalog
