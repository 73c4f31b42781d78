import DiscCatalog.Proofs.Client.Steps
import DiscCatalog.Proofs.Frame.RoundTrip

namespace DiscCatalog

namespace Cursor

def onto (entries : List CatalogEntry) (truncated : Option String) : Cursor where
  spool := if entries = [] then none else some (entries.flatMap CatalogEntry.filled)
  remaining := entries.length
  truncated := truncated

variable {entries : List CatalogEntry} {truncated : Option String}

theorem next_onto_cons {e : CatalogEntry} (h : e.Encodes) :
    (onto (e :: entries) truncated).next = (.ok (some e), onto entries truncated) := by
  have enough : ¬ (e.filled ++ entries.flatMap CatalogEntry.filled).length < CatalogEntry.frameSize := by
    simp [CatalogEntry.length_filled h]
  have spool : (onto (e :: entries) truncated).spool = some (e.filled ++ entries.flatMap CatalogEntry.filled) :=
    rfl
  have remaining : (onto (e :: entries) truncated).remaining = entries.length + 1 := rfl
  unfold next
  simp only [spool, remaining, if_neg enough, List.take_left' (CatalogEntry.length_filled h),
    List.drop_left' (CatalogEntry.length_filled h), CatalogEntry.ofBytes_filled h]
  simp only [onto, List.length_eq_zero_iff]

theorem take_onto (h : ∀ e ∈ entries, e.Encodes) (room : Nat) :
    (onto entries truncated).take room = (.ok (entries.take room), onto (entries.drop room) truncated) := by
  induction room generalizing entries with
  | zero => rfl
  | succ room ih =>
    cases entries with
    | nil => rfl
    | cons e entries =>
      rw [take, next_onto_cons (h e List.mem_cons_self)]
      simp only [ih fun e he => h e (List.mem_cons_of_mem _ he)]
      rfl

/-- A cursor gives back all its entries in order and is empty then. -/
theorem collect_onto (h : ∀ e ∈ entries, e.Encodes) :
    (onto entries truncated).collect = (.ok entries, onto [] truncated) := by
  have whole : (onto entries truncated).remaining + 1 = entries.length + 1 := rfl
  rw [collect, whole, take_onto h, List.take_of_length_le (Nat.le_succ _), List.drop_of_length_le (Nat.le_succ _)]

def rest (entries : List CatalogEntry) (truncated : Option String) : Option Cursor :=
  if entries = [] then none else some (onto entries truncated)

def stepping (entries : List CatalogEntry) : Option Cursor :=
  if entries = [] then none else some (onto entries none)

theorem isExhausted_onto : (onto entries truncated).isExhausted = decide (entries = []) := by
  simp [isExhausted, onto]

end Cursor

namespace Spool

def holding (entries : List CatalogEntry) : Spool where
  written := if entries = [] then none else some (entries.flatMap CatalogEntry.filled)
  count := entries.length
  fault := none

theorem push_holding {entries : List CatalogEntry} {e : CatalogEntry} (h : e.Encodes) :
    (holding entries).push none e = holding (entries ++ [e]) := by
  unfold push
  rw [CatalogEntry.toBytes_of_encodes h]
  by_cases empty : entries = []
  · subst empty
    simp [holding]
  · simp [holding, empty]

theorem finish_holding (entries : List CatalogEntry) (truncated : Option String) :
    (holding entries).finish truncated = .ok (Cursor.onto entries truncated) := by
  by_cases empty : entries = [] <;> simp [finish, holding, Cursor.onto, empty]

end Spool

namespace Client

variable {σ : Type} {port : ClientPort σ}

theorem drain_entry {asked r : Message} {room : Nat} {s t : σ} (kept : List CatalogEntry)
    (received : port.replyReceive s = (.ok r, t)) (about : r.operation = asked.operation) (status : r.status = .ok)
    (encodes : r.catalog.Encodes) :
    drain port asked none (room + 1) (Spool.holding kept) s =
      drain port asked none room (Spool.holding (kept ++ [r.catalog])) t := by
  rw [drain_kept received about status, Spool.push_holding encodes]

inductive Yields (port : ClientPort σ) : List Message → σ → σ → Prop
  | nil (s : σ) : Yields port [] s s
  | cons {r : Message} {rest : List Message} {s t u : σ} :
      port.replyReceive s = (.ok r, t) → Yields port rest t u → Yields port (r :: rest) s u

/-- Reading a complete answer to a search keeps all its entries and nothing else. -/
theorem drain_of_yields (asked last : Message) (found : CatalogEntry → Message)
    {entries : List CatalogEntry} (kept : List CatalogEntry)
    {room : Nat} {s t : σ}
    (hfound : ∀ e, (found e).operation = asked.operation ∧ (found e).status = .ok ∧ (found e).catalog = e)
    (hlast : last.operation = asked.operation ∧ last.status = .noMoreResults)
    (encode : ∀ e ∈ entries, e.Encodes) (enough : entries.length < room)
    (yields : Yields port (entries.map found ++ [last]) s t) :
    drain port asked none room (Spool.holding kept) s = ((.ok none, Spool.holding (kept ++ entries)), t) := by
  induction entries generalizing kept room s with
  | nil =>
    rw [List.map_nil, List.nil_append] at yields
    cases yields with
    | cons received rest =>
      cases rest
      obtain ⟨room, rfl⟩ := Nat.exists_eq_succ_of_ne_zero (Nat.ne_zero_of_lt enough)
      rw [drain_last received hlast.1 hlast.2, List.append_nil]
  | cons e entries ih =>
    rw [List.map_cons, List.cons_append] at yields
    cases yields with
    | cons received rest =>
      obtain ⟨operation, status, catalog⟩ := hfound e
      cases room with
      | zero => exact absurd enough (Nat.not_lt_zero _)
      | succ room =>
        have fits : (found e).catalog.Encodes := catalog.symm ▸ encode e List.mem_cons_self
        have later := ih (kept ++ [e]) (fun x hx => encode x (List.mem_cons_of_mem _ hx))
          (Nat.lt_of_succ_lt_succ enough) rest
        rw [drain_entry kept received operation status fits, catalog, later, List.append_assoc]
        rfl

theorem cursorOf_holding (entries : List CatalogEntry) (truncated : Option String) :
    cursorOf (.ok truncated, Spool.holding entries) = .ok (Cursor.onto entries truncated) :=
  Spool.finish_holding entries truncated

theorem firstOf_onto {entries : List CatalogEntry} (fit : ∀ e ∈ entries, e.Encodes) (truncated : Option String) :
    firstOf (.ok (.onto entries truncated)) = (.ok entries[0]?, Cursor.rest entries.tail truncated) := by
  cases entries with
  | nil => rfl
  | cons e left =>
    simp only [firstOf, Cursor.next_onto_cons (fit e List.mem_cons_self), Cursor.isExhausted_onto, decide_eq_true_eq]
    rfl

theorem findCatalog_rest (port : ClientPort σ) (query : String) {entries : List CatalogEntry}
    (encode : ∀ e ∈ entries, e.Encodes) (truncated : Option String) (c : ClientState σ) :
    findCatalog port query false { c with held := Cursor.rest entries truncated } =
      (.ok entries.head?, { c with held := Cursor.rest entries.tail truncated }) := by
  cases entries with
  | nil => rfl
  | cons e rest =>
    have stepped := findCatalog_held port query (.onto (e :: rest) truncated) c
    rw [firstOf_onto encode truncated] at stepped
    exact stepped

theorem findCatalog_again (port : ClientPort σ) (query : String) {entries : List CatalogEntry} (encode : ∀ e ∈ entries, e.Encodes)
    (c : ClientState σ) :
    findCatalog port query false { c with held := Cursor.stepping entries } =
      (.ok entries.head?, { c with held := Cursor.stepping entries.tail }) :=
  findCatalog_rest port query encode none c

end Client

end DiscCatalog
