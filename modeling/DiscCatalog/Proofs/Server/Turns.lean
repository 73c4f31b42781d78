import DiscCatalog.Proofs.Server.Carried
import DiscCatalog.Proofs.Server.Encoding
import DiscCatalog.Server.Turns

namespace DiscCatalog

def ServerPort.Prompt {σ : Type} (port : ServerPort σ) : Prop :=
  (∀ origin s, (port.replyBegin origin s).1 ≠ .error .interrupted) ∧
    ∀ m s, (port.replySend m s).1 ≠ .error .interrupted

namespace Server

variable {σ : Type} {store : RecordStore σ} {port : ServerPort σ} {m : Message} {s t : σ}

section Send

variable {u : Unsent} {outcome : Except ChannelFault Unit}

theorem send_none (store : RecordStore σ) (port : ServerPort σ) (s : σ) :
    send store port none s = (none, port.replyEnd s) := by
  rw [send]

theorem send_waits (store : RecordStore σ) (waits : port.replySend u.reply s = (.error .interrupted, t)) :
    send store port (some u) s = (some u, t) := by
  rw [send, waits]

theorem send_onward (store : RecordStore σ) (sent : port.replySend u.reply s = (outcome, t))
    (goes : outcome ≠ .error .interrupted) :
    send store port (some u) s = send store port (onward store u outcome t).1 (onward store u outcome t).2 := by
  rw [send, sent]
  split
  · next same => cases same; exact absurd rfl goes
  · next same => cases same; rfl

theorem send_last {r : Message} (done : send store port (some (.last r)) s = (none, t)) :
    t = port.replyEnd (port.replySend r s).2 := by
  rcases sent : port.replySend r s with ⟨outcome, s'⟩
  by_cases waits : outcome = .error .interrupted
  · subst waits
    rw [send_waits (u := .last r) store sent] at done
    cases done
  · have ended : send store port (some (.last r)) s = send store port none s' := send_onward (u := .last r) store sent waits
    rw [ended, send_none] at done
    cases done
    rfl

theorem isNone_send (prompt : port.Prompt) (u : Option Unsent) (s : σ) : (send store port u s).1 = none := by
  fun_induction send store port u s with
  | case1 => rfl
  | case2 s v t waits => exact absurd (congrArg Prod.fst waits) (prompt.2 v.reply s)
  | case3 s v outcome t goes sent ih => exact ih

end Send

theorem replyEnd_stream {query : String} {room : Nat} {first : Bool}
    (done : send store port (seek store m query room first s).1 (seek store m query room first s).2 = (none, t)) :
    port.replyEnd (stream store port m query room first s) = t := by
  induction room generalizing first s with
  | zero =>
    rw [seek, send_none] at done
    exact congrArg Prod.snd done
  | succ room ih =>
    rw [seek] at done
    rcases scanned : store.findNext query first s with ⟨_ | e, s'⟩
    · rw [scanned] at done
      rw [stream_ended scanned]
      exact (send_last done).symm
    · rw [scanned] at done
      rcases sent : port.replySend (m.found e) s' with ⟨cause | ⟨⟩, u⟩
      · by_cases waits : cause = .interrupted
        · subst waits
          have paused := send_waits (u := .found m query e room) store sent
          cases paused.symm.trans done
        · have cut := send_onward (u := .found m query e room) store sent (by simpa using waits)
          rw [stream_lost scanned sent]
          exact (send_last (cut.symm.trans done)).symm
      · rw [stream_sent scanned sent]
        have onward := send_onward (u := .found m query e room) store sent (by simp)
        exact ih (onward.symm.trans done)

theorem replyEnd_answer (done : send store port (carryOut store m s).1 (carryOut store m s).2 = (none, t)) :
    port.replyEnd (answer store port m s) = t := by
  unfold carryOut at done
  unfold answer
  cases request : m.request with
  | findCatalog query =>
    rw [request] at done
    exact replyEnd_stream done
  | getCatalog | getTrack | createDatabase | addCatalog | addTrack | deleteCatalog | deleteTrack =>
    rw [request] at done
    exact (send_last done).symm

theorem respond_eq_none {taken : Taken} {u : Option Unsent} (done : respond store port taken u s = (none, t)) :
    send store port u s = (none, t) := by
  rcases sent : send store port u s with ⟨_ | v, s'⟩ <;> rw [respond, sent] at done <;> cases done
  rfl

theorem dispatch_of_attempt (done : attempt store port (.request m) s = (none, t)) : dispatch store port m s = t := by
  unfold attempt at done
  rcases begun : port.replyBegin m.origin s with ⟨fault | ⟨⟩, s'⟩
  · rw [dispatch_unbegun begun]
    have opened : port.replyBegin (Taken.request m).origin s = (.error fault, s') := begun
    rw [opened] at done
    cases fault <;> cases done <;> rfl
  · have opened : port.replyBegin (Taken.request m).origin s = (.ok (), s') := begun
    rw [opened] at done
    rw [dispatch_begun begun]
    exact replyEnd_answer (respond_eq_none done)

theorem reject_of_attempt {origin : UInt32} {cause : FrameFault}
    (done : attempt store port (.unreadable origin cause) s = (none, t)) : reject port origin cause s = t := by
  unfold attempt at done
  rcases begun : port.replyBegin origin s with ⟨fault | ⟨⟩, s'⟩
  · rw [reject_unbegun begun]
    have opened : port.replyBegin (Taken.unreadable origin cause).origin s = (.error fault, s') := begun
    rw [opened] at done
    cases fault <;> cases done <;> rfl
  · have opened : port.replyBegin (Taken.unreadable origin cause).origin s = (.ok (), s') := begun
    rw [opened] at done
    rw [reject_begun begun]
    exact (send_last (respond_eq_none done)).symm

theorem account_eq {taken : Taken} {left : Option Pause × σ} {handled : Nat} {outcome : Except ServerFault (Option Pause)}
    {w : Service σ} (counted : account taken handled left = (outcome, w)) (done : ∀ pause, outcome ≠ .ok (some pause)) :
    ∃ s, left = (none, s) ∧ outcome = .ok none ∧ w = ⟨s, handled + taken.count⟩ := by
  obtain ⟨_ | pause, s⟩ := left
  · cases counted
    exact ⟨s, rfl, rfl, rfl⟩
  · cases counted
    exact absurd rfl (done pause)

/-- A server that receives and need not wait before all is answered does what handling one request is. -/
theorem handleNext_of_turn {v w : Service σ} {outcome : Except ServerFault (Option Pause)}
    (turned : turn store port none v = (outcome, w)) (done : ∀ pause, outcome ≠ .ok (some pause)) :
    handleNext store port v = (outcome.map fun _ => (), w) := by
  unfold turn at turned
  unfold handleNext
  rcases received : port.receive v.world with ⟨fault | m, s⟩
  · rw [received] at turned
    cases fault with
    | malformed origin cause =>
      cases origin with
      | none => cases turned; rfl
      | some origin =>
        obtain ⟨u, whole, rfl, rfl⟩ := account_eq turned done
        dsimp only
        rw [reject_of_attempt whole]
        rfl
    | _ => cases turned; rfl
  · rw [received] at turned
    obtain ⟨u, whole, rfl, rfl⟩ := account_eq turned done
    dsimp only
    rw [dispatch_of_attempt whole]
    rfl

theorem turn_ne_paused (prompt : port.Prompt) (v : Service σ) (pause : Pause) :
    (turn store port none v).1 ≠ .ok (some pause) := by
  have attempted (taken : Taken) (s : σ) : (attempt store port taken s).1 = none := by
    unfold attempt
    rcases begun : port.replyBegin taken.origin s with ⟨fault | ⟨⟩, t⟩
    · have prompt := prompt.1 taken.origin s
      rw [begun] at prompt
      cases fault with
      | interrupted => exact absurd rfl prompt
      | _ => rfl
    · dsimp only [respond]
      rw [isNone_send prompt]
      rfl
  unfold turn
  rcases received : port.receive v.world with ⟨fault | m, s⟩
  · cases fault with
    | malformed origin cause => cases origin <;> simp [account, attempted]
    | _ => simp
  · simp [account, attempted]

/-- Where an answer never has to wait, a turn is the handling of one request. -/
theorem turn_eq_handleNext (prompt : port.Prompt) (v : Service σ) :
    turn store port none v = ((handleNext store port v).1.map fun _ => none, (handleNext store port v).2) := by
  rcases turned : turn store port none v with ⟨outcome, w⟩
  have done : ∀ pause, outcome ≠ .ok (some pause) := fun pause => by
    have never : (turn store port none v).1 ≠ .ok (some pause) := turn_ne_paused prompt v pause
    rwa [turned] at never
  rw [handleNext_of_turn turned done]
  rcases outcome with f | _ | pause
  · rfl
  · rfl
  · exact absurd rfl (done pause)

/-- In this state of the store an answer goes on with these replies, if all go through, and leaves the store in that. -/
def Owes : List Message → Option Unsent → Store → Store → Prop
  | [], u, s, after => u = none ∧ s = after
  | r :: rest, u, s, after => ∃ v, u = some v ∧ v.reply = r ∧
      Owes rest (onward RecordStore.memory v (.ok ()) s).1 (onward RecordStore.memory v (.ok ()) s).2 after

theorem Owes.length_le {r : Message} {rest : List Message} {u : Unsent} {s after : Store}
    (owes : Owes (r :: rest) (some u) s after) : rest.length + 1 ≤ u.most := by
  induction rest generalizing r u s with
  | nil => cases u <;> simp [Unsent.most]
  | cons next rest ih =>
    obtain ⟨v, same, -, w, onward, read, later⟩ := owes
    cases same
    have fewer := most_onward RecordStore.memory u (.ok ()) s
    rw [onward] at fewer
    exact (Nat.succ_le_succ (ih ⟨w, rfl, read, later⟩)).trans fewer

section Beside

variable {τ : Type}

theorem seek_beside (m : Message) (query : String) (room : Nat) (first : Bool) (s : Store) (w : τ) :
    seek (memoryBeside τ) m query room first (s, w) = ((seek RecordStore.memory m query room first s).1,
      (seek RecordStore.memory m query room first s).2, w) := by
  cases room with
  | zero => rfl
  | succ room =>
    have found : (memoryBeside τ).findNext query first (s, w) = ((RecordStore.memory.findNext query first s).1,
        (RecordStore.memory.findNext query first s).2, w) := rfl
    rw [seek, seek, found]
    rcases RecordStore.memory.findNext query first s with ⟨_ | e, t⟩ <;> rfl

theorem onward_beside (u : Unsent) (outcome : Except ChannelFault Unit) (s : Store) (w : τ) :
    onward (memoryBeside τ) u outcome (s, w) = ((onward RecordStore.memory u outcome s).1,
      (onward RecordStore.memory u outcome s).2, w) := by
  cases u with
  | last reply => rfl
  | found m query entry room =>
    cases outcome with
    | ok => exact seek_beside m query room false s w
    | error cause => rfl

end Beside

namespace Carries

variable {ς : Type} {f : σ → ς} {store' : RecordStore ς} {port' : ServerPort ς} (h : Carries f store port store' port')

include h

theorem seek (m : Message) (query : String) (room : Nat) (first : Bool) (s : σ) :
    Server.seek store' m query room first (f s) = Prod.map id f (Server.seek store m query room first s) := by
  cases room with
  | zero => rfl
  | succ room =>
    rw [Server.seek, Server.seek, h.findNext]
    rcases store.findNext query first s with ⟨_ | e, t⟩ <;> rfl

theorem onward (u : Unsent) (outcome : Except ChannelFault Unit) (s : σ) :
    Server.onward store' u outcome (f s) = Prod.map id f (Server.onward store u outcome s) := by
  cases u with
  | last reply => rfl
  | found m query entry room =>
    cases outcome with
    | ok => exact h.seek m query room false s
    | error cause => rfl

theorem carryOut (m : Message) (s : σ) :
    Server.carryOut store' m (f s) = Prod.map id f (Server.carryOut store m s) := by
  unfold Server.carryOut
  cases m.request with
  | findCatalog query => simp only [h.size, h.seek]
  | getCatalog | getTrack => simp only [h.catalog?, h.track?, Prod.map_apply, id_eq]
  | createDatabase | addCatalog | addTrack | deleteCatalog | deleteTrack =>
    simp only [changeOf, h.change, Prod.map, id_eq]

theorem send (u : Option Unsent) (s : σ) :
    Server.send store' port' u (f s) = Prod.map id f (Server.send store port u s) := by
  fun_induction Server.send store port u s with
  | case1 s => rw [send_none, h.replyEnd]; rfl
  | case2 s v t waits =>
    have same := h.replySend v.reply s
    rw [waits] at same
    exact send_waits store' same
  | case3 s v outcome t goes sent ih =>
    have same := h.replySend v.reply s
    rw [sent] at same
    rw [send_onward store' same goes, id_eq, h.onward]
    exact ih

theorem respond (taken : Taken) (u : Option Unsent) (s : σ) :
    Server.respond store' port' taken u (f s) = Prod.map id f (Server.respond store port taken u s) := by
  unfold Server.respond
  rw [h.send]
  rfl

theorem attempt (taken : Taken) (s : σ) :
    Server.attempt store' port' taken (f s) = Prod.map id f (Server.attempt store port taken s) := by
  have prepared (t : σ) : Server.prepare store' taken (f t) = Prod.map id f (Server.prepare store taken t) := by
    cases taken with
    | request m => exact h.carryOut m t
    | unreadable origin cause => rfl
  unfold Server.attempt
  rw [h.replyBegin]
  rcases port.replyBegin taken.origin s with ⟨fault | ⟨⟩, t⟩
  · cases fault <;> rfl
  · simp only [Prod.map, id_eq, prepared, h.respond]

theorem turn (paused : Option Pause) (s : σ) (n : Nat) :
    Server.turn store' port' paused ⟨f s, n⟩ = ((Server.turn store port paused ⟨s, n⟩).1,
      ⟨f (Server.turn store port paused ⟨s, n⟩).2.world, (Server.turn store port paused ⟨s, n⟩).2.handled⟩) := by
  unfold Server.turn
  cases paused with
  | some pause =>
    obtain ⟨taken, _ | u⟩ := pause
    · simp only [h.attempt]
      rfl
    · simp only [h.respond]
      rfl
  | none =>
    simp only [h.receive]
    rcases port.receive s with ⟨fault | m, t⟩
    · cases fault with
      | malformed origin cause =>
        cases origin with
        | none => rfl
        | some origin => simp only [Prod.map, id_eq, h.attempt]; rfl
      | _ => rfl
    · simp only [Prod.map, id_eq, h.attempt]
      rfl

end Carries

end Server

end DiscCatalog
