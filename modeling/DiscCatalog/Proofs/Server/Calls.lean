import DiscCatalog.Proofs.Server.Carried

namespace DiscCatalog

/-- A call of a server on its channel, and its outcome. -/
inductive ServerCall where
  | received (outcome : Except ChannelFault Message)
  | begun (origin : UInt32) (outcome : Except ChannelFault Unit)
  | sent (m : Message) (outcome : Except ChannelFault Unit)
  | ended
  | closed

def ServerCall.addressee : Except ChannelFault Message → Option UInt32
  | .ok m => some m.origin
  | .error (.malformed origin _) => origin
  | .error _ => none

theorem ServerCall.addressee_eq_none {fault : ChannelFault} (unread : ∀ origin cause, fault ≠ .malformed (some origin) cause) :
    addressee (.error fault) = none := by
  cases fault with
  | malformed origin cause =>
    cases origin with
    | none => rfl
    | some origin => exact absurd rfl (unread origin cause)
  | _ => rfl

namespace ServerPort

variable {τ : Type}

def noting (port : ServerPort τ) : ServerPort (τ × List ServerCall) where
  receive w := ((port.receive w.1).1, (port.receive w.1).2, w.2 ++ [.received (port.receive w.1).1])
  replyBegin origin w := ((port.replyBegin origin w.1).1, (port.replyBegin origin w.1).2,
    w.2 ++ [.begun origin (port.replyBegin origin w.1).1])
  replySend m w := ((port.replySend m w.1).1, (port.replySend m w.1).2,
    w.2 ++ [.sent m (port.replySend m w.1).1])
  replyEnd w := (port.replyEnd w.1, w.2 ++ [.ended])
  close w := (port.close w.1, w.2 ++ [.closed])
  backlog w := port.backlog w.1

/-- The end of a channel beside a store that it does not touch. -/
def beside (ρ : Type) (port : ServerPort τ) : ServerPort (ρ × τ) :=
  port.within ⟨Prod.snd, fun w s => (s.1, w)⟩

variable {ρ : Type} {port : ServerPort τ} {s : ρ × τ × List ServerCall} {w : τ}

theorem receive_noting {outcome : Except ChannelFault Message} (received : port.receive s.2.1 = (outcome, w)) :
    (port.noting.beside ρ).receive s = (outcome, s.1, w, s.2.2 ++ [.received outcome]) := by
  simp only [beside, within, Part.lift, noting, received]

theorem replyBegin_noting {origin : UInt32} {outcome : Except ChannelFault Unit}
    (begun : port.replyBegin origin s.2.1 = (outcome, w)) :
    (port.noting.beside ρ).replyBegin origin s = (outcome, s.1, w, s.2.2 ++ [.begun origin outcome]) := by
  simp only [beside, within, Part.lift, noting, begun]

end ServerPort

def RecordStore.beside {ρ : Type} (store : RecordStore ρ) (τ : Type) : RecordStore (ρ × τ) :=
  store.within ⟨Prod.fst, fun r s => (r, s.2)⟩

namespace Server

variable {ρ σ τ : Type}

/-- The server after it received so many times. -/
def receiving (store : RecordStore σ) (port : ServerPort σ) : (count : Nat) → Service σ → Service σ
  | 0, v => v
  | count + 1, v => receiving store port count (handleNext store port v).2

theorem carries_noting (store : RecordStore ρ) (port : ServerPort τ) :
    Carries (fun s : ρ × τ × List ServerCall => (s.1, s.2.1)) (store.beside _) (port.noting.beside ρ)
      (store.beside _) (port.beside ρ) where
  catalog? _ _ := rfl
  track? _ _ _ := rfl
  change _ _ := rfl
  findNext _ _ _ := rfl
  size _ := rfl
  receive _ := rfl
  replyBegin _ _ := rfl
  replySend _ _ := rfl
  replyEnd _ := rfl

theorem serve_eq_receiving (store : RecordStore σ) (port : ServerPort σ) (stop : Nat → Bool) (room checks : Nat)
    (v : Service σ) : ∃ count, (serve store port stop room checks v).service = receiving store port count v := by
  induction room generalizing checks v with
  | zero => exact ⟨0, by rw [serve_zero]; rfl⟩
  | succ room ih =>
    cases told : stop checks with
    | true => exact ⟨0, by rw [serve_stopped told]; rfl⟩
    | false =>
      -- After every receive the run goes on or ends, and the server is the one after that receive.
      obtain goes | ⟨f, ends⟩ := serve_succ room told v
      · obtain ⟨count, same⟩ := ih (checks + 1) (handleNext store port v).2
        exact ⟨count + 1, by rw [goes]; exact same⟩
      · exact ⟨1, by rw [ends]; rfl⟩

/-- A run until it is stopped is so many receives, after which the channel is closed. -/
theorem runUntil_eq_receiving (store : RecordStore σ) (port : ServerPort σ) (stop : Nat → Bool) (v : Service σ) :
    ∃ count, (runUntil store port stop v).service =
      { receiving store port count v with world := port.close (receiving store port count v).world } := by
  obtain ⟨count, same⟩ := serve_eq_receiving store port stop (port.backlog v.world + 1) 0 v
  refine ⟨count, ?_⟩
  rw [← same]
  rfl

end Server

end DiscCatalog
