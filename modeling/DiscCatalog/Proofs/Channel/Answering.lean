import DiscCatalog.Channel.Medium
import DiscCatalog.Proofs.Client.Spooled

namespace DiscCatalog

namespace Part

structure Lawful {σ τ : Type} (p : Part σ τ) : Prop where
  get_set : ∀ t s, p.get (p.set t s) = t
  set_get : ∀ s, p.set (p.get s) s = s
  set_set : ∀ t u s, p.set t (p.set u s) = p.set t s

end Part

namespace Medium

variable {V W S C : Type}

/-- How a server and its clients stand to each other on a kind of channel. While nothing is on its way between them, a client
asks and the server takes the request; a reply goes through then, unless the server would have to wait with it, which it
never has to when nothing lies unread before the client. -/
structure Answering (m : Medium W S C) where
  origin : C → UInt32
  closed : C → Bool
  Rests : List C → S → W → Prop
  Replies : (sending : Bool) → (unread : List Message) → C → List C → S → W → Prop
  origin_eq : ∀ c w, m.client.origin (c, w) = origin c
  perm : ∀ {cs ds s w}, Rests cs s w → cs.Perm ds → Rests ds s w
  opens : ∀ {cs s w o}, Rests cs s w → o ≠ 0 → (∀ c ∈ cs, origin c ≠ o) → ∃ c w', m.openClient o w = (.ok c, w') ∧
    origin c = o ∧ closed c = false ∧ Rests (c :: cs) s w'
  closes : ∀ {c cs s w}, Rests (c :: cs) s w → ∃ c' w', m.client.close (c, w) = (c', w') ∧ origin c' = origin c ∧
    closed c' = true ∧ Rests cs s w'
  gone : ∀ {c} w, closed c = true → m.client.close (c, w) = (c, w)
  refuses : ∀ {c} asked w, closed c = true → m.client.send asked (c, w) = (.error .closed, c, w)
  misfits : ∀ {c cs s w asked fault}, Rests (c :: cs) s w → asked.misfit? = some fault →
    m.client.send asked (c, w) = (.error (.frame fault), c, w)
  idles : ∀ {cs s w}, Rests cs s w → ∃ s' w', m.waiting.receive (s, w) = (.error .interrupted, s', w') ∧ Rests cs s' w'
  asks : ∀ {c cs s w asked}, Rests (c :: cs) s w → asked.Encodes → asked.origin = origin c →
    ∃ sent c' w₁ s₂ w₂ s₃ w₃, m.client.send asked (c, w) = (.ok (), sent) ∧
      m.client.replyBegin sent = (.ok (), c', w₁) ∧ m.waiting.receive (s, w₁) = (.ok asked, s₂, w₂) ∧
      m.waiting.replyBegin asked.origin (s₂, w₂) = (.ok (), s₃, w₃) ∧ origin c' = origin c ∧ closed c' = false ∧
      Replies true [] c' cs s₃ w₃
  sends : ∀ {unread c cs s w r}, Replies true unread c cs s w → r.Encodes → r.origin = origin c →
    (∃ s' w', m.waiting.replySend r (s, w) = (.ok (), s', w') ∧ Replies true (unread ++ [r]) c cs s' w') ∨
      unread ≠ [] ∧ m.waiting.replySend r (s, w) = (.error .interrupted, s, w)
  ends : ∀ {unread c cs s w}, Replies true unread c cs s w →
    Replies false unread c cs (m.waiting.replyEnd (s, w)).1 (m.waiting.replyEnd (s, w)).2
  waits : ∀ {unread c cs s w}, Replies false unread c cs s w → ∃ s' w',
    m.waiting.receive (s, w) = (.error .interrupted, s', w') ∧ Replies false unread c cs s' w'
  reads : ∀ {sending r unread c cs s w}, Replies sending (r :: unread) c cs s w →
    ∃ w', m.client.replyReceive (c, w) = (.ok r, c, w') ∧ Replies sending unread c cs s w'
  backlog : ∀ {sending unread c cs s w}, Replies sending unread c cs s w → unread.length ≤ m.client.backlog (c, w)
  replyEnd_eq : ∀ t, m.client.replyEnd t = t
  rests : ∀ {c cs s w}, Replies false [] c cs s w → Rests (c :: cs) s w

section Within

variable {p : Part V W} (lawful : p.Lawful) {m : Medium W S C} (v : V)

include lawful

theorem lift_beside {E α : Type} (f : E × W → α × E × W) (e : E) (w : W) :
    (beside p E).lift f (e, p.set w v) = ((f (e, w)).1, (f (e, w)).2.1, p.set (f (e, w)).2.2 v) := by
  simp only [Part.lift, beside, lawful.get_set, lawful.set_set]

theorem receive_within (s : S) (w : W) : (m.within p).waiting.receive (s, p.set w v) =
    ((m.waiting.receive (s, w)).1, (m.waiting.receive (s, w)).2.1, p.set (m.waiting.receive (s, w)).2.2 v) := by
  have polled : (m.within p).poll (s, p.set w v) =
      ((m.poll (s, w)).1, (m.poll (s, w)).2.1, p.set (m.poll (s, w)).2.2 v) :=
    lift_beside lawful v m.poll s w
  simp only [waiting, polled]
  rcases m.poll (s, w) with ⟨_ | _, after⟩ <;> rfl

theorem lift_within {E α : Type} {f : E × W → α × E × W} {e e' : E} {w w' : W} {a : α} (made : f (e, w) = (a, e', w')) :
    (beside p E).lift f (e, p.set w v) = (a, e', p.set w' v) := by
  rw [lift_beside lawful, made]

end Within

def Answering.within {p : Part V W} (lawful : p.Lawful) {m : Medium W S C} (a : m.Answering) : (m.within p).Answering where
  origin := a.origin
  closed := a.closed
  Rests cs s v := a.Rests cs s (p.get v)
  Replies sending unread c cs s v := a.Replies sending unread c cs s (p.get v)
  origin_eq c v := a.origin_eq c (p.get v)
  perm := a.perm
  opens {cs s v o} rests some fresh := by
    obtain ⟨c, w', opened, same, isOpen, rests⟩ := a.opens rests some fresh
    refine ⟨c, p.set w' v, ?_, same, isOpen, by rwa [lawful.get_set]⟩
    simp only [Medium.within, Part.lift, opened]
  closes {c cs s v} rests := by
    obtain ⟨c', w', closed, same, gone, rests⟩ := a.closes rests
    refine ⟨c', p.set w' v, ?_, same, gone, by rwa [lawful.get_set]⟩
    simp only [Medium.within, ClientPort.within, beside, closed]
  gone {c} v closed := by
    simp only [Medium.within, ClientPort.within, beside, a.gone _ closed, lawful.set_get]
  refuses {c} asked v closed := by
    simp only [Medium.within, ClientPort.within, beside, Part.lift, a.refuses _ _ closed, lawful.set_get]
  misfits {c cs s v asked fault} rests misfit := by
    simp only [Medium.within, ClientPort.within, beside, Part.lift, a.misfits rests misfit, lawful.set_get]
  idles {cs s v} rests := by
    obtain ⟨s', w', idle, rests⟩ := a.idles rests
    refine ⟨s', p.set w' v, ?_, by rwa [lawful.get_set]⟩
    have lifted := receive_within (m := m) lawful v s (p.get v)
    rwa [lawful.set_get, idle] at lifted
  asks {c cs s v asked} rests encodes own := by
    obtain ⟨sent, c', w₁, s₂, w₂, s₃, w₃, taken, listens, received, begun, same, isOpen, replies⟩ :=
      a.asks rests encodes own
    refine ⟨(sent.1, p.set sent.2 v), c', p.set w₁ v, s₂, p.set w₂ v, s₃, p.set w₃ v, ?_,
      lift_within lawful v listens, ?_, lift_within lawful v begun, same, isOpen, by rwa [lawful.get_set]⟩
    · have sent' : m.client.send asked (c, p.get v) = (.ok (), sent.1, sent.2) := taken
      have lifted := lift_within lawful v sent'
      rwa [lawful.set_get] at lifted
    · rw [receive_within lawful, received]
  sends {unread c cs s v r} replies encodes own := by
    obtain ⟨s', w', sent, replies⟩ | ⟨some, waits⟩ := a.sends replies encodes own
    · have lifted := lift_within lawful v sent
      rw [lawful.set_get] at lifted
      exact .inl ⟨s', p.set w' v, lifted, by rwa [lawful.get_set]⟩
    · have lifted := lift_within lawful v waits
      rw [lawful.set_get] at lifted
      exact .inr ⟨some, lifted⟩
  ends {unread c cs s v} replies := by
    have ended := a.ends replies
    rw [← lawful.get_set (m.waiting.replyEnd (s, p.get v)).2 v] at ended
    exact ended
  waits {unread c cs s v} replies := by
    obtain ⟨s', w', idle, replies⟩ := a.waits replies
    refine ⟨s', p.set w' v, ?_, by rwa [lawful.get_set]⟩
    have lifted := receive_within (m := m) lawful v s (p.get v)
    rwa [lawful.set_get, idle] at lifted
  reads {sending r unread c cs s v} replies := by
    obtain ⟨w', read, replies⟩ := a.reads replies
    have lifted := lift_within lawful v read
    rw [lawful.set_get] at lifted
    exact ⟨p.set w' v, lifted, by rwa [lawful.get_set]⟩
  backlog replies := a.backlog replies
  replyEnd_eq t := by
    simp only [Medium.within, ClientPort.within, beside, a.replyEnd_eq, lawful.set_get]
  rests replies := a.rests replies

end Medium

end DiscCatalog
