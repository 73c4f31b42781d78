import DiscCatalog.Proofs.Server.Steps
import DiscCatalog.Proofs.Store.Scan

namespace DiscCatalog

namespace Server

variable {σ τ : Type}

def repliesTo (m : Message) (s : Store) : List Message :=
  match m.request with
  | .findCatalog query => (s.matching query).map m.found ++ [m.noMore]
  | .getCatalog key => [{ m.reply .ok with catalog := (s.catalog? key).getD {} }]
  | .getTrack key number => [{ m.reply .ok with track := (s.track? key number).getD {} }]
  | request => (changeOf request).toList.map fun c => m.conclusion (RecordStore.memory.change c s).1

def storeAfter (m : Message) (s : Store) : Store :=
  match changeOf m.request with
  | none => s
  | some c => (RecordStore.memory.change c s).2

theorem repliesTo_ne_nil (m : Message) (s : Store) : repliesTo m s ≠ [] := by
  unfold repliesTo
  cases m.request with
  | findCatalog query => exact List.append_ne_nil_of_right_ne_nil _ (List.cons_ne_nil _ _)
  | createDatabase | getCatalog | getTrack | addCatalog | addTrack | deleteCatalog | deleteTrack =>
    exact List.cons_ne_nil _ _

theorem repliesTo_of_change {m : Message} {c : Change} (h : changeOf m.request = some c) (s : Store) :
    repliesTo m s = [m.conclusion (RecordStore.memory.change c s).1] := by
  unfold repliesTo
  cases hm : m.request <;> rw [hm] at h <;> cases h <;> rfl

theorem storeAfter_of_change {m : Message} {c : Change} (h : changeOf m.request = some c) (s : Store) :
    storeAfter m s = (RecordStore.memory.change c s).2 := by
  rw [storeAfter, h]

def deliver (port : ServerPort τ) (m : Message) : List Message → τ → τ
  | [], w => w
  | [last], w => (port.replySend last w).2
  | r :: next :: rest, w =>
    match port.replySend r w with
    | (.ok (), w) => deliver port m (next :: rest) w
    | (.error cause, w) => (port.replySend (m.cutShort cause) w).2

theorem deliver_cons (port : ServerPort τ) (m r : Message) {rest : List Message} (h : rest ≠ []) (w : τ) :
    deliver port m (r :: rest) w = match port.replySend r w with
      | (.ok (), w) => deliver port m rest w
      | (.error cause, w) => (port.replySend (m.cutShort cause) w).2 := by
  cases rest with
  | nil => exact absurd rfl h
  | cons next rest => rfl

def memoryBeside (τ : Type) : RecordStore (Store × τ) :=
  RecordStore.memory.within ⟨Prod.fst, fun t s => (t, s.2)⟩

def besideMemory (port : ServerPort τ) : ServerPort (Store × τ) :=
  port.within ⟨Prod.snd, fun w s => (s.1, w)⟩

theorem findNext_memoryBeside (query : String) (first : Bool) (s : Store) (w : τ) :
    (memoryBeside τ).findNext query first (s, w) =
      ((s.findNext query first).1, (s.findNext query first).2, w) := rfl

theorem replySend_besideMemory (port : ServerPort τ) (m : Message) (s : Store) (w : τ) :
    (besideMemory port).replySend m (s, w) = ((port.replySend m w).1, s, (port.replySend m w).2) := rfl

/-- A search goes through the matches that are before the scan and ends with the last message. -/
theorem stream_eq (port : ServerPort τ) (m : Message) (query : String) {room : Nat} {s : Store} (w : τ)
    (h : (s.pending query).length < room) :
    ∃ scan, stream (memoryBeside τ) (besideMemory port) m query room false (s, w) =
      ({ s with scan }, deliver port m ((s.pending query).map m.found ++ [m.noMore]) w) := by
  induction room generalizing s w with
  | zero => exact absurd h (Nat.not_lt_zero _)
  | succ room ih =>
    have scanned := findNext_memoryBeside query false s w
    cases hp : s.pending query with
    | nil =>
      rw [Store.findNext_of_nil hp] at scanned
      rw [stream_ended scanned]
      exact ⟨.done, rfl⟩
    | cons e rest =>
      have more : rest.map m.found ++ [m.noMore] ≠ [] := by simp
      have sent := replySend_besideMemory port (m.found e) { s with scan := .after e.catalog } w
      rw [Store.findNext_of_cons hp] at scanned
      rw [List.map_cons, List.cons_append, deliver_cons port m _ more]
      generalize port.replySend (m.found e) w = reply at sent ⊢
      obtain ⟨cause | ⟨⟩, w'⟩ := reply
      · rw [stream_lost scanned sent]
        exact ⟨.after e.catalog, rfl⟩
      · rw [stream_sent scanned sent]
        have fewer : ({ s with scan := .after e.catalog }.pending query).length < room := by
          rw [Store.pending_after hp]
          rw [hp, List.length_cons] at h
          omega
        obtain ⟨scan, same⟩ := ih (s := { s with scan := .after e.catalog }) w' fewer
        rw [Store.pending_after hp] at same
        exact ⟨scan, same⟩

/-- Carrying out a request over a store in memory is the change of its tables and the sending of its
replies, which do not depend on where a scan stands. -/
theorem answer_eq (port : ServerPort τ) (m : Message) (s : Store) (w : τ) :
    ∃ scan, answer (memoryBeside τ) (besideMemory port) m (s, w) =
      ({ storeAfter m s with scan }, deliver port m (repliesTo m s) w) := by
  unfold answer repliesTo storeAfter
  cases m.request with
  | findCatalog query =>
    have room : ({ s with scan := .start }.pending query).length < s.catalogs.size + 1 :=
      Nat.lt_succ_of_le (Store.length_pending_le query _)
    exact stream_eq port m query w room
  | getCatalog | getTrack => exact ⟨s.scan, rfl⟩
  | createDatabase | addCatalog | addTrack | deleteCatalog | deleteTrack => exact ⟨_, rfl⟩

end Server

end DiscCatalog
