import DiscCatalog.Server

namespace DiscCatalog

namespace Server

variable {σ : Type} {store : RecordStore σ} {port : ServerPort σ} {m : Message} {s t u : σ}

section Search

variable {query : String} {room : Nat} {first : Bool} {e : CatalogEntry}

theorem stream_ended (scanned : store.findNext query first s = (none, t)) :
    stream store port m query (room + 1) first s = (port.replySend m.noMore t).2 := by
  rw [stream, scanned]

theorem stream_sent (scanned : store.findNext query first s = (some e, t))
    (sent : port.replySend (m.found e) t = (.ok (), u)) :
    stream store port m query (room + 1) first s = stream store port m query room false u := by
  rw [stream, scanned]
  simp only [sent]

theorem stream_lost {cause : ChannelFault} (scanned : store.findNext query first s = (some e, t))
    (lost : port.replySend (m.found e) t = (.error cause, u)) :
    stream store port m query (room + 1) first s = (port.replySend (m.cutShort cause) u).2 := by
  rw [stream, scanned]
  simp only [lost]

end Search

theorem answer_of_change {c : Change} (changes : changeOf m.request = some c) (s : σ) :
    answer store port m s = (port.replySend (m.conclusion (store.change c s).1) (store.change c s).2).2 := by
  unfold answer
  cases asks : m.request <;> rw [asks] at changes <;> cases changes <;> rfl

section Reply

variable {origin : UInt32} {cause : FrameFault} {fault : ChannelFault}

theorem dispatch_unbegun (failed : port.replyBegin m.origin s = (.error fault, t)) : dispatch store port m s = t := by
  rw [dispatch, failed]

theorem dispatch_begun (begun : port.replyBegin m.origin s = (.ok (), t)) :
    dispatch store port m s = port.replyEnd (answer store port m t) := by
  rw [dispatch, begun]

theorem reject_unbegun (failed : port.replyBegin origin s = (.error fault, t)) : reject port origin cause s = t := by
  rw [reject, failed]

theorem reject_begun (begun : port.replyBegin origin s = (.ok (), t)) :
    reject port origin cause s =
      port.replyEnd (port.replySend (.rejection origin (commandFailed cause.message)) t).2 := by
  rw [reject, begun]

end Reply

section Receive

variable {v : Service σ} {outcome : Except ChannelFault Message}

theorem handleNext_message (taken : port.receive v.world = (.ok m, s)) :
    handleNext store port v = (.ok (), { world := dispatch store port m s, handled := v.handled + 1 }) := by
  rw [handleNext, taken]

theorem handleNext_malformed {origin : UInt32} {cause : FrameFault}
    (taken : port.receive v.world = (.error (.malformed (some origin) cause), s)) :
    handleNext store port v = (.ok (), { v with world := reject port origin cause s }) := by
  rw [handleNext, taken]

/-- A server that received something carries out a request, or rejects one that it could not read, or has nobody to
answer. -/
theorem handleNext_cases (store : RecordStore σ) (taken : port.receive v.world = (outcome, s)) :
    (∃ m, outcome = .ok m ∧
      handleNext store port v = (.ok (), { world := dispatch store port m s, handled := v.handled + 1 })) ∨
    (∃ origin cause, outcome = .error (.malformed (some origin) cause) ∧
      handleNext store port v = (.ok (), { v with world := reject port origin cause s })) ∨
    ∃ fault, outcome = .error fault ∧ (∀ origin cause, fault ≠ .malformed (some origin) cause) ∧
      (handleNext store port v).2 = { v with world := s } := by
  cases outcome with
  | ok m => exact .inl ⟨m, rfl, handleNext_message taken⟩
  | error fault =>
    by_cases answered : ∃ origin cause, fault = .malformed (some origin) cause
    · obtain ⟨origin, cause, rfl⟩ := answered
      exact .inr (.inl ⟨origin, cause, rfl, handleNext_malformed taken⟩)
    · refine .inr (.inr ⟨fault, rfl, fun origin cause same => answered ⟨origin, cause, same⟩, ?_⟩)
      rw [handleNext, taken]
      split <;> simp_all

end Receive

section Serve

variable {stop : Nat → Bool} {checks room : Nat} {v w : Service σ}

theorem serve_stopped (told : stop checks = true) : serve store port stop room checks v = ⟨.ok (), checks + 1, v⟩ := by
  unfold serve
  rw [if_pos told]

theorem serve_zero : serve store port stop 0 checks v = ⟨.ok (), checks + 1, v⟩ := by
  unfold serve
  split <;> rfl

theorem serve_onward {outcome : Except ServerFault Unit} (untold : stop checks = false)
    (handled : handleNext store port v = (outcome, w))
    (goes : outcome = .ok () ∨ outcome = .error (.channel .interrupted)) :
    serve store port stop (room + 1) checks v = serve store port stop room (checks + 1) w := by
  rw [serve, if_neg (Bool.eq_false_iff.1 untold), handled]
  obtain rfl | rfl := goes <;> rfl

theorem serve_failed {f : ServerFault} (untold : stop checks = false) (handled : handleNext store port v = (.error f, w))
    (fails : f ≠ .channel .interrupted) :
    serve store port stop (room + 1) checks v = ⟨.error f, checks + 1, w⟩ := by
  rw [serve, if_neg (Bool.eq_false_iff.1 untold), handled]
  split
  · next same => cases same
  · next same => cases same; exact absurd rfl fails
  · next same => cases same; rfl

theorem serve_succ (room : Nat) (untold : stop checks = false) (v : Service σ) :
    serve store port stop (room + 1) checks v = serve store port stop room (checks + 1) (handleNext store port v).2 ∨
      ∃ f, serve store port stop (room + 1) checks v = ⟨.error f, checks + 1, (handleNext store port v).2⟩ := by
  rcases handled : handleNext store port v with ⟨f | ⟨⟩, w⟩
  · by_cases interrupted : f = .channel .interrupted
    · exact .inl (serve_onward untold handled (.inr (congrArg _ interrupted)))
    · exact .inr ⟨f, serve_failed untold handled interrupted⟩
  · exact .inl (serve_onward untold handled (.inl rfl))

end Serve

end Server

end DiscCatalog
