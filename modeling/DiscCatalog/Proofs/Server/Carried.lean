import DiscCatalog.Proofs.Server.Steps

namespace DiscCatalog

namespace Server

variable {σ ς : Type}

structure Carries (f : σ → ς) (store : RecordStore σ) (port : ServerPort σ) (store' : RecordStore ς)
    (port' : ServerPort ς) : Prop where
  catalog? : ∀ key s, store'.catalog? key (f s) = store.catalog? key s
  track? : ∀ key number s, store'.track? key number (f s) = store.track? key number s
  change : ∀ c s, store'.change c (f s) = Prod.map id f (store.change c s)
  findNext : ∀ query first s, store'.findNext query first (f s) = Prod.map id f (store.findNext query first s)
  size : ∀ s, store'.size (f s) = store.size s
  receive : ∀ s, port'.receive (f s) = Prod.map id f (port.receive s)
  replyBegin : ∀ origin s, port'.replyBegin origin (f s) = Prod.map id f (port.replyBegin origin s)
  replySend : ∀ m s, port'.replySend m (f s) = Prod.map id f (port.replySend m s)
  replyEnd : ∀ s, port'.replyEnd (f s) = f (port.replyEnd s)

namespace Carries

variable {f : σ → ς} {store : RecordStore σ} {port : ServerPort σ} {store' : RecordStore ς}
  {port' : ServerPort ς} (h : Carries f store port store' port')

include h

theorem stream (m : Message) (query : String) (room : Nat) (first : Bool) (s : σ) :
    Server.stream store' port' m query room first (f s) = f (Server.stream store port m query room first s) := by
  induction room generalizing first s with
  | zero => rfl
  | succ room ih =>
    rw [Server.stream, Server.stream, h.findNext]
    obtain ⟨_ | e, s⟩ := store.findNext query first s
    · simp only [Prod.map, id_eq, h.replySend]
    · simp only [Prod.map_apply, id_eq]
      rw [h.replySend]
      obtain ⟨_ | _, s⟩ := port.replySend (m.found e) s
      · simp only [Prod.map_apply, id_eq, h.replySend]
        rfl
      · exact ih false s

theorem answer (m : Message) (s : σ) :
    Server.answer store' port' m (f s) = f (Server.answer store port m s) := by
  unfold Server.answer
  cases m.request with
  | findCatalog query => simp only [h.size, h.stream]
  | getCatalog | getTrack => simp only [h.catalog?, h.track?, h.replySend, Prod.map]
  | createDatabase | addCatalog | addTrack | deleteCatalog | deleteTrack =>
    simp only [changeOf, h.change, h.replySend, Prod.map, id_eq]

theorem dispatch (m : Message) (s : σ) :
    Server.dispatch store' port' m (f s) = f (Server.dispatch store port m s) := by
  have same := h.replyBegin m.origin s
  rcases begun : port.replyBegin m.origin s with ⟨fault | ⟨⟩, t⟩
  · rw [begun] at same
    rw [dispatch_unbegun begun, dispatch_unbegun same]
  · rw [begun] at same
    rw [dispatch_begun begun, dispatch_begun same, ← h.replyEnd, ← h.answer]

theorem reject (origin : UInt32) (cause : FrameFault) (s : σ) :
    Server.reject port' origin cause (f s) = f (Server.reject port origin cause s) := by
  have same := h.replyBegin origin s
  rcases begun : port.replyBegin origin s with ⟨fault | ⟨⟩, t⟩
  · rw [begun] at same
    rw [reject_unbegun begun, reject_unbegun same]
  · rw [begun] at same
    rw [reject_begun begun, reject_begun same, ← h.replyEnd]
    exact congrArg (fun sent => port'.replyEnd sent.2) (h.replySend _ t)

theorem handleNext (s : σ) (n : Nat) :
    Server.handleNext store' port' ⟨f s, n⟩ =
      ((Server.handleNext store port ⟨s, n⟩).1, ⟨f (Server.handleNext store port ⟨s, n⟩).2.world,
        (Server.handleNext store port ⟨s, n⟩).2.handled⟩) := by
  unfold Server.handleNext
  simp only [h.receive]
  obtain ⟨fault | m, s⟩ := port.receive s
  · cases fault with
    | malformed origin cause =>
      cases origin with
      | none => rfl
      | some origin => simp only [Prod.map, id_eq, h.reject]
    | _ => rfl
  · simp only [Prod.map, id_eq, h.dispatch]

end Carries

end Server

end DiscCatalog
