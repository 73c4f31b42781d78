import Mathlib.Data.List.Nodup
import DiscCatalog.Proofs.Server.Calls
import DiscCatalog.Proofs.Store.Meanwhile
import DiscCatalog.Proofs.Text.Utf8

namespace DiscCatalog

namespace Server

variable {σ τ : Type}

/-- The answer to a search as it is sent without any bound on how long it gets. -/
inductive Streams (store : RecordStore σ) (port : ServerPort σ) (m : Message) (query : String) : Bool → σ → σ → Prop
  | ended {first : Bool} {s t : σ} : store.findNext query first s = (none, t) →
    Streams store port m query first s (port.replySend m.noMore t).2
  | broken {first : Bool} {s t u : σ} {e : CatalogEntry} {cause : ChannelFault} :
    store.findNext query first s = (some e, t) → port.replySend (m.found e) t = (.error cause, u) →
    Streams store port m query first s (port.replySend (m.cutShort cause) u).2
  | onward {first : Bool} {s t u v : σ} {e : CatalogEntry} :
    store.findNext query first s = (some e, t) → port.replySend (m.found e) t = (.ok (), u) →
    Streams store port m query false u v → Streams store port m query first s v

theorem streams_stream (port : ServerPort τ) (m : Message) (query : String) {room : Nat} (first : Bool)
    (s : (Repository × Host) × τ) (enough : (s.1.1.pending query first).length < room) :
    Streams (Repository.recordStore.beside τ) (port.beside _) m query first s
      (stream (Repository.recordStore.beside τ) (port.beside _) m query room first s) := by
  induction room generalizing first s with
  | zero => exact absurd enough (Nat.not_lt_zero _)
  | succ room ih =>
    rcases scanned : (Repository.recordStore.beside τ).findNext query first s with ⟨_ | e, t⟩
    · rw [stream_ended scanned]
      exact .ended scanned
    rcases sent : (port.beside (Repository × Host)).replySend (m.found e) t with ⟨cause | ⟨⟩, u⟩
    · rw [stream_lost scanned sent]
      exact .broken scanned sent
    rw [stream_sent scanned sent]
    refine .onward scanned sent (ih false u ?_)
    have given : (s.1.1.findNext query first).1 = some e := congrArg Prod.fst scanned
    have moved : u.1.1 = (s.1.1.findNext query first).2 := by
      have kept : u.1 = t.1 := congrArg (fun x : _ × (Repository × Host) × τ => x.2.1) sent.symm
      rw [kept]
      exact congrArg (fun x : Option CatalogEntry × (Repository × Host) × τ => x.2.1.1) scanned.symm
    cases found : s.1.1.pending query first with
    | nil =>
      rw [Repository.findNext_of_nil found] at given
      cases given
    | cons x rest =>
      rw [moved, (Repository.findNext_of_cons found).2]
      rw [found, List.length_cons] at enough
      omega

end Server

/-- A scan finds its way whatever happens to the store between its calls. The keys that it gives are rising and
match, each with the row that is stored at that moment; a matching key that is there at every call up to the
one that finds nothing is given once, and after that call nothing is given. Where nothing is put in the scan
comes to its end, and so does the answer to a search. -/
theorem Repository.scan_amid_changes (query : String) (gaps : List (List Meanwhile)) (s : Repository × Host) :
    let moments := scanAmid query gaps s
    let entries := moments.filterMap (·.answer)
    (∃ k, moments.map (·.answer) = entries.map some ++ List.replicate k none)
      ∧ (entries.map (Text.bytes ·.catalog)).Pairwise (· < ·)
      ∧ (∀ e ∈ entries, Text.contains e.catalog query = true)
      ∧ (∀ moment ∈ moments, ∀ e, moment.answer = some e → moment.catalogs.find? e.catalog = some e)
      ∧ (∀ key, Text.contains key query = true → none ∈ moments.map (·.answer) →
          (∀ moment ∈ moments.take (entries.length + 1), (moment.catalogs.find? key).isSome) →
          (entries.map (·.catalog)).count key = 1)
      ∧ ((∀ gap ∈ gaps, ∀ m ∈ gap, ¬ m.Puts) → entries.length ≤ s.1.tables.catalogs.size
          ∧ (s.1.tables.catalogs.size ≤ gaps.length → none ∈ moments.map (·.answer)))
      ∧ ∀ (τ : Type) (port : ServerPort τ) (m : Message) (w : τ),
          Server.Streams (recordStore.beside τ) (port.beside _) m query true (s, w)
            (Server.stream (recordStore.beside τ) (port.beside _) m query (s.1.tables.catalogs.size + 1) true (s, w)) := by
  intro moments entries
  have scanned : Scanned query .start moments := scanned_scanAmid query gaps s
  obtain ⟨k, answers⟩ := scanned.answers
  have counted : moments.length = entries.length + k := by
    have := congrArg List.length answers
    simpa [entries] using this
  have total : moments.length = gaps.length + 1 := congrArg Nat.succ (length_scanOn query gaps _)
  have ended : none ∈ moments.map (·.answer) ↔ 0 < k := by
    rw [answers]
    simp [Nat.pos_iff_ne_zero]
  refine ⟨⟨k, answers⟩, ?_, scanned.matching, scanned.stored, fun key held finished present => ?_, fun none => ?_,
    fun τ port m w => ?_⟩
  · have rising := scanned.increasing.map Text.bytes fun _ _ => Text.bytes_lt_bytes
    rwa [List.map_map] at rising
  · have more : entries.length < moments.length := by
      have := ended.1 finished
      omega
    have apart {a b : String} (less : a < b) : a ≠ b := fun same => String.lt_irrefl b (same ▸ less)
    have distinct : (entries.map (·.catalog)).Nodup := scanned.increasing.imp apart
    exact List.count_eq_one_of_mem distinct (scanned.complete key held id more present)
  · have few : entries.length ≤ s.1.tables.catalogs.size :=
      (length_call_le query true _ (length_found_le none _)).trans (s.1.length_pending_le query true)
    exact ⟨few, fun enough => ended.2 (by omega)⟩
  · exact Server.streams_stream port m query true (s, w) (Nat.lt_succ_of_le (s.1.length_pending_le query true))

end DiscCatalog
