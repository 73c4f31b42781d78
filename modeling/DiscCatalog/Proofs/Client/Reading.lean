import DiscCatalog.Channel.Script
import DiscCatalog.Proofs.Client.Replies

namespace DiscCatalog

/-- The cursor gives these entries one after another, counting what is left, and nothing after them. -/
inductive Cursor.Replays : Cursor → List CatalogEntry → Prop
  | done {c : Cursor} : c.remaining = 0 → c.next = (.ok none, c) → Replays c []
  | more {c d : Cursor} {e : CatalogEntry} {rest : List CatalogEntry} : c.remaining = rest.length + 1 →
      c.next = (.ok (some e), d) → d.truncated = c.truncated → Replays d rest → Replays c (e :: rest)

theorem Cursor.replays_onto {entries : List CatalogEntry} (fit : ∀ e ∈ entries, e.Encodes) (truncated : Option String) :
    (onto entries truncated).Replays entries := by
  induction entries with
  | nil => exact .done rfl rfl
  | cons e rest ih =>
    obtain ⟨fits, fit⟩ := List.forall_mem_cons.1 fit
    exact .more rfl (next_onto_cons fits) rfl (ih fit)

namespace Spool

def pushAll (room : Option SystemFault) (entries : List CatalogEntry) (s : Spool) : Spool :=
  entries.foldl (fun s e => s.push room e) s

theorem pushAll_holding (kept : List CatalogEntry) {entries : List CatalogEntry} (fit : ∀ e ∈ entries, e.Encodes) :
    (holding kept).pushAll none entries = holding (kept ++ entries) := by
  induction entries generalizing kept with
  | nil => rw [List.append_nil]; rfl
  | cons e rest ih =>
    obtain ⟨fits, fit⟩ := List.forall_mem_cons.1 fit
    have pushed : (holding kept).pushAll none (e :: rest) = ((holding kept).push none e).pushAll none rest := rfl
    rw [pushed, push_holding fits, ih (kept ++ [e]) fit, List.append_assoc]
    rfl

theorem fault_pushAll {s : Spool} {fault : ClientFault} (broken : s.fault = some fault) (room : Option SystemFault)
    (entries : List CatalogEntry) : (s.pushAll room entries).fault = some fault := by
  induction entries generalizing s with
  | nil => exact broken
  | cons e rest ih =>
    have same : s.push room e = s := by
      unfold push
      rw [broken]
      rfl
    change ((s.push room e).pushAll room rest).fault = some fault
    rw [same]
    exact ih broken

inductive FirstUnfit : List CatalogEntry → FrameFault → Prop
  | here {e : CatalogEntry} {rest : List CatalogEntry} {fault : FrameFault} :
      e.toBytes = .error fault → FirstUnfit (e :: rest) fault
  | later {e : CatalogEntry} {rest : List CatalogEntry} {fault : FrameFault} :
      e.Encodes → FirstUnfit rest fault → FirstUnfit (e :: rest) fault

theorem fit_or_firstUnfit (entries : List CatalogEntry) :
    (∀ e ∈ entries, e.Encodes) ∨ ∃ fault, FirstUnfit entries fault := by
  induction entries with
  | nil => exact .inl (by simp)
  | cons e rest ih =>
    cases written : e.toBytes with
    | error fault => exact .inr ⟨fault, .here written⟩
    | ok bytes =>
      have fits : e.Encodes := ⟨bytes, written⟩
      obtain fit | ⟨fault, unfit⟩ := ih
      · exact .inl (List.forall_mem_cons.2 ⟨fits, fit⟩)
      · exact .inr ⟨fault, .later fits unfit⟩

theorem fault_pushAll_holding (kept : List CatalogEntry) {entries : List CatalogEntry} {fault : FrameFault}
    (unfit : FirstUnfit entries fault) : ((holding kept).pushAll none entries).fault = some (.frame fault) := by
  induction unfit generalizing kept with
  | @here e rest fault written =>
    have broken : ((holding kept).push none e).fault = some (.frame fault) := by
      unfold push
      rw [written]
      rfl
    exact fault_pushAll broken none rest
  | @later e rest fault fits _ ih =>
    have pushed : (holding kept).pushAll none (e :: rest) = ((holding kept).push none e).pushAll none rest := rfl
    rw [pushed, push_holding fits]
    exact ih (kept ++ [e])

end Spool

namespace ClientPort

variable {σ : Type} (port : ClientPort σ)

/-- The channel after receiving so many times. -/
def past : Nat → σ → σ
  | 0, s => s
  | k + 1, s => past k (port.replyReceive s).2

/-- What receiving gives after receiving `k` times. -/
def item (s : σ) (k : Nat) : Except ChannelFault Message := (port.replyReceive (port.past k s)).1

/-- The entries in the first `p` things received. -/
def entries (s : σ) (p : Nat) : List CatalogEntry :=
  (List.range p).filterMap fun k => (port.item s k).toOption.map (·.catalog)

variable {port} {s t : σ} {outcome : Except ChannelFault Message}

theorem item_succ (received : port.replyReceive s = (outcome, t)) (k : Nat) : port.item s (k + 1) = port.item t k := by
  rw [← show (port.replyReceive s).2 = t from congrArg Prod.snd received]
  rfl

theorem past_succ (received : port.replyReceive s = (outcome, t)) (k : Nat) : port.past (k + 1) s = port.past k t := by
  rw [past, received]

theorem past_succ_eq (k : Nat) (s : σ) : port.past (k + 1) s = (port.replyReceive (port.past k s)).2 := by
  induction k generalizing s with
  | zero => rfl
  | succ k ih => exact ih (port.replyReceive s).2

theorem entries_succ {r : Message} (received : port.replyReceive s = (.ok r, t)) (p : Nat) :
    port.entries s (p + 1) = r.catalog :: port.entries t p := by
  have first : port.item s 0 = .ok r := congrArg Prod.fst received
  simp [entries, List.range_succ_eq_map, List.filterMap_map, first, item_succ received, Except.toOption]

end ClientPort

namespace Client

/-- What ends the reading of a search: anything but a reply to it that brings an entry. -/
def EndsSearch : Except ChannelFault Message → Prop
  | .ok r => r.operation ≠ .findCatalog ∨ r.status ≠ .ok
  | .error _ => True

/-- What a search gives that received these entries and then what ended it. -/
inductive Reads (entries : List CatalogEntry) : Except ChannelFault Message → Except ClientFault Cursor → Prop
  | lost (f : ChannelFault) : Reads entries (.error f) (.error (.channel f))
  | other {r : Message} : r.operation ≠ .findCatalog →
      Reads entries (.ok r) (.error (.unexpectedReply
        s!"{r.operation.name} reply to a {Operation.findCatalog.name} request"))
  | unfit {r : Message} {fault : FrameFault} : r.operation = .findCatalog → r.status ≠ .ok →
      Spool.FirstUnfit entries fault → Reads entries (.ok r) (.error (.frame fault))
  | whole {r : Message} {c : Cursor} : r.operation = .findCatalog → r.status ≠ .ok → (∀ e ∈ entries, e.Encodes) →
      c.remaining = entries.length → c.truncated = (if r.status = .failed then some r.diagnostic else none) →
      c.Replays entries → Reads entries (.ok r) (.ok c)

variable {σ : Type} {port : ClientPort σ}

section Drain

variable {asked : Message} {room : Option SystemFault} {s : σ}

theorem endsSearch_iff_stops (search : asked.operation = .findCatalog) (r : Message) :
    EndsSearch (.ok r) ↔ Stops asked r := by
  rw [Stops, search]
  exact Iff.rfl

theorem going {p : Nat} (goes : ∀ k < p + 1, ¬ EndsSearch (port.item s k)) :
    ∃ r t, port.replyReceive s = (.ok r, t) ∧ ¬ EndsSearch (.ok r) ∧ ∀ k < p, ¬ EndsSearch (port.item t k) := by
  have first := goes 0 (Nat.succ_pos p)
  cases received : port.replyReceive s with
  | mk outcome t =>
    have here : port.item s 0 = outcome := congrArg Prod.fst received
    rw [here] at first
    cases outcome with
    | error f => exact absurd trivial first
    | ok r =>
      refine ⟨r, t, rfl, first, fun k below => ?_⟩
      rw [← ClientPort.item_succ received]
      exact goes (k + 1) (Nat.succ_lt_succ below)

theorem length_entries {p : Nat} (goes : ∀ k < p, ¬ EndsSearch (port.item s k)) : (port.entries s p).length = p := by
  induction p generalizing s with
  | zero => rfl
  | succ p ih =>
    obtain ⟨r, t, received, -, later⟩ := going goes
    rw [ClientPort.entries_succ received, List.length_cons, ih later]

/-- The reading goes on as long as entries come, whatever becomes of them. -/
theorem drain_entries (search : asked.operation = .findCatalog) {p : Nat} (goes : ∀ k < p, ¬ EndsSearch (port.item s k))
    (left : Nat) (spool : Spool) :
    drain port asked room (left + p) spool s =
      drain port asked room left (spool.pushAll room (port.entries s p)) (port.past p s) := by
  induction p generalizing spool s with
  | zero => rfl
  | succ p ih =>
    obtain ⟨r, t, received, first, later⟩ := going goes
    rw [← Nat.add_assoc, drain_received received, if_neg (mt (endsSearch_iff_stops search r).2 first), ih later,
      ClientPort.entries_succ received, ClientPort.past_succ received]
    rfl

end Drain

/-- What was spooled comes to light once the reading is over. -/
theorem reads_finish {r : Message} (search : r.operation = .findCatalog) (status : r.status ≠ .ok)
    (entries : List CatalogEntry) :
    Reads entries (.ok r)
      ((Spool.pushAll none entries {}).finish (if r.status = .failed then some r.diagnostic else none)) := by
  have nothing : ({} : Spool) = .holding [] := rfl
  rw [nothing]
  obtain fit | ⟨fault, unfit⟩ := Spool.fit_or_firstUnfit entries
  · rw [Spool.pushAll_holding [] fit, List.nil_append, Spool.finish_holding]
    exact .whole search status fit rfl rfl (Cursor.replays_onto fit _)
  · have broken := Spool.fault_pushAll_holding [] unfit
    rw [Spool.finish, broken]
    exact .unfit search status unfit

theorem reads_last {asked r : Message} (search : asked.operation = .findCatalog) (ends : EndsSearch (.ok r))
    (entries : List CatalogEntry) :
    Reads entries (.ok r) (cursorOf (readReplies asked none (Spool.pushAll none entries {}) [r])) := by
  rw [readReplies]
  by_cases same : r.operation = .findCatalog
  · have about : ¬ r.operation ≠ asked.operation := not_not.2 (same.trans search.symm)
    have status := ends.resolve_left (not_not.2 same)
    have finish := reads_finish same status entries
    rw [if_neg about]
    cases given : r.status with
    | ok => exact absurd given status
    | failed =>
      rw [given, if_pos rfl] at finish
      exact finish
    | noMoreResults =>
      rw [given, if_neg (by simp)] at finish
      exact finish
  · have other : r.operation ≠ asked.operation := fun about => same (about.trans search)
    rw [if_pos other, unexpected, search]
    exact .other same

theorem drain_end {asked : Message} {s t : σ} {outcome : Except ChannelFault Message}
    (search : asked.operation = .findCatalog) (received : port.replyReceive s = (outcome, t)) (ends : EndsSearch outcome)
    (left : Nat) (entries : List CatalogEntry) :
    ∃ read, drain port asked none (left + 1) (Spool.pushAll none entries {}) s = (read, t) ∧
      Reads entries outcome (cursorOf read) := by
  cases outcome with
  | error f => exact ⟨_, drain_failed received _, .lost f⟩
  | ok r =>
    have stops := (endsSearch_iff_stops search r).1 ends
    exact ⟨_, (drain_received received left).trans (if_pos stops), reads_last search ends entries⟩

/-- Whatever a channel brings after the request of a search, the search reads up to the first thing that is no entry,
at position `p`, even if an entry before it could not be spooled, and ends its session there. It gives the fault of the
channel if that is what came; else, that a reply was to something else; else the fault of the first entry that fits no
frame; and else a cursor that gives back the `p` entries as they came, with the word of the server if it failed. That the
channel's backlog is `enough` is what it stands for: it counts the replies that come before a fault. -/
theorem search_reads_to_end (port : ClientPort σ) (query : String) (c : ClientState σ) (room : c.spoolRoom = none)
    {sent begun : σ} {p : Nat}
    (taken : port.send (.ofRequest (port.origin c.world) (.findCatalog query)) c.world = (.ok (), sent))
    (opened : port.replyBegin sent = (.ok (), begun)) (goes : ∀ k < p, ¬ EndsSearch (port.item begun k))
    (ends : EndsSearch (port.item begun p)) (enough : p ≤ port.backlog begun) :
    ∃ result, search port query c = (result, { c with world := port.replyEnd (port.past (p + 1) begun) }) ∧
      (port.entries begun p).length = p ∧ Reads (port.entries begun p) (port.item begun p) result := by
  obtain ⟨left, backlog⟩ := Nat.exists_eq_add_of_le' enough
  let asked : Message := .ofRequest (port.origin c.world) (.findCatalog query)
  have search : asked.operation = .findCatalog := rfl
  have onward : drain port asked c.spoolRoom (port.backlog begun + 1) {} begun =
      drain port asked none (left + 1) (Spool.pushAll none (port.entries begun p) {}) (port.past p begun) := by
    rw [room, backlog, Nat.add_right_comm]
    exact drain_entries search goes (left + 1) {}
  have received : port.replyReceive (port.past p begun) = (port.item begun p, port.past (p + 1) begun) :=
    Prod.ext rfl (port.past_succ_eq p begun).symm
  obtain ⟨read, drained, reads⟩ := drain_end search received ends left (port.entries begun p)
  exact ⟨cursorOf read, search_begun taken opened (onward.trans drained), length_entries goes, reads⟩

/-- The second of two entries fits no frame, and then the server fails. -/
theorem search_reads_to_end_unfit :
    let found (e : CatalogEntry) : Message := { operation := .findCatalog, catalog := e }
    let long : CatalogEntry := { catalog := "CD2", title := String.ofList (List.replicate Slot.title.width 'T') }
    let failure : Message := { operation := .findCatalog, status := .failed, diagnostic := "command failed: disk full" }
    let replies : List (Except ChannelFault Message) := [.ok (found { catalog := "CD1" }), .ok (found long), .ok failure]
    let c : ClientState ClientScript := { world := { origin := 7, replies } }
    let asked := Message.ofRequest 7 (.findCatalog "CD")
    let begun : ClientScript := { origin := 7, replies, sent := [asked], begun := 1 }
    let port := ClientScript.port
    port.send asked c.world = (.ok (), { origin := 7, replies, sent := [asked] }) ∧
      (∀ k < 2, ¬ EndsSearch (port.item begun k)) ∧ EndsSearch (port.item begun 2) ∧
      ∃ result, search port "CD" c = (result, { c with world := port.replyEnd (port.past 3 begun) }) ∧
        (port.entries begun 2).length = 2 ∧ Reads (port.entries begun 2) (port.item begun 2) result := by
  intro found long failure replies c asked begun port
  have taken : port.send asked c.world = (.ok (), { origin := 7, replies, sent := [asked] }) := by
    have fits : (Request.findCatalog "CD").misfit? = none := by decide
    have encoded := Message.encode_of_encodes (Message.encodes_ofRequest 7 fits)
    simp only [port, c, ClientScript.port, ClientScript.send, asked, encoded]
    rfl
  have goes : ∀ k < 2, ¬ EndsSearch (port.item begun k) := by
    intro k below
    match k, below with
    | 0, _ | 1, _ => exact not_or.2 ⟨not_not.2 rfl, not_not.2 rfl⟩
  have ends : EndsSearch (port.item begun 2) := .inr (by decide)
  exact ⟨taken, goes, ends, search_reads_to_end port "CD" c rfl taken rfl goes ends (by decide)⟩

end Client

end DiscCatalog
