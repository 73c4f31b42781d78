import DiscCatalog.Proofs.Channel.Answering
import DiscCatalog.Proofs.Channel.MessageQueue

namespace DiscCatalog

open Mailboxes

namespace Posting

variable {ms : List Message}

def posted (ms : List Message) : List Posting := ms.map message

theorem letters_posted (ms : List Message) (m : Message) : (posted (ms ++ [m])).map letter =
    (posted ms).map letter ++ [{ type := m.origin.toNat, payload := m.frame }] := by
  simp only [posted, List.map_append, List.map_cons, List.map_nil]
  rfl

end Posting

open Posting

namespace Mailboxes

variable {q : Mailboxes} {box : Mailbox} {id : Nat} {ms : List Message} {m : Message}

/-- A frame goes behind the others, or has to wait for room, which there is when no others are there. -/
theorem send_posted (there : q.box? id = some { box with letters := (posted ms).map letter })
    (granted : grants box 2 = true) (encodes : m.Encodes) (some : m.origin ≠ 0) (room : Frame.size ≤ q.capacity) :
    q.send id m.origin.toNat m.frame = (.ok (), q.refill id box ((posted (ms ++ [m])).map letter)) ∨
      ms ≠ [] ∧ q.send id m.origin.toNat m.frame = (.error .interrupted, q) := by
  have length : m.frame.length = Frame.size := Message.length_frame encodes
  have type : 0 < m.origin.toNat := Nat.pos_of_ne_zero fun zero => some (UInt32.toNat_inj.1 zero)
  have short : ¬ (maxPayload < m.frame.length ∨ (m.origin.toNat : Int) < 1) := by
    rw [length, not_or]
    exact ⟨by decide, by omega⟩
  have granted' : grants { box with letters := (posted ms).map letter } 2 = true := granted
  unfold send
  rw [if_neg short, there]
  dsimp only
  rw [if_neg (not_not_intro granted')]
  split
  · next full =>
    refine .inr ⟨?_, rfl⟩
    rintro rfl
    have enough : ¬ (q.capacity < 0 + m.frame.length ∨ q.capacity < 0 + 1) := by
      have size : Frame.size = 403 := rfl
      omega
    exact enough full
  · rw [letters_posted]
    exact .inl rfl

theorem receive_empty (there : q.box? id = some { box with letters := [] }) (granted : grants box 4 = true)
    (type room : Nat) : q.receive id type room = (.error .interrupted, q) := by
  have granted' : grants { box with letters := [] } 4 = true := granted
  unfold receive
  rw [there]
  dsimp only
  rw [if_neg (not_not_intro granted')]
  rfl

end Mailboxes

structure QueueServer.Lines (settings : QueueSettings) (s : QueueServer) (requests replies : List Message) (q : Mailboxes) :
    Prop where
  boxes : ∃ requestBox replyBox, s.Holds settings requestBox replyBox (posted requests) (posted replies) q ∧
    (grants requestBox 2 = true ∧ grants requestBox 4 = true) ∧ grants replyBox 2 = true ∧ grants replyBox 4 = true
  room : Frame.size ≤ q.capacity

section Lines

variable {settings : QueueSettings} {s : QueueServer} {c : QueueClient}
  {requests replies rest : List Message} {m : Message} {q : Mailboxes}

theorem Posting.encode_of_sound (sound : ∀ p ∈ posted requests, p.Sound) : ∀ r ∈ requests, r.Encodes := fun _ there =>
  sound _ (List.mem_map_of_mem there)

namespace QueueServer

theorem waiting_receive (settings : QueueSettings) (w : QueueServer × Mailboxes) :
    (Medium.queues settings).waiting.receive w = receive w := by
  simp only [Medium.waiting, Medium.queues, poll_eq_receive]
  rcases receive w with ⟨f | m, w'⟩
  · cases f <;> rfl
  · rfl

theorem Lines.receive_nil (lines : s.Lines settings [] replies q) :
    receive (s, q) = (.error .interrupted, s, q) := by
  obtain ⟨requestBox, replyBox, holds, granted, -⟩ := lines.boxes
  have waits : s.requests.receive 0 q = (.error .interrupted, q) := by
    rw [QueueRef.receive, receive_empty holds.requestLine granted.2]
    rfl
  simp only [receive, holds.runs.isOpen, Bool.false_eq_true, ↓reduceIte, waits]

theorem Lines.receive_cons (lines : s.Lines settings (m :: rest) replies q) :
    ∃ q', receive (s, q) = (.ok m, s, q') ∧ s.Lines settings rest replies q' := by
  obtain ⟨requestBox, replyBox, holds, granted, granted'⟩ := lines.boxes
  obtain ⟨f, -, -, none⟩ | ⟨p, left, parts, taken⟩ := receive_cases holds
  · exact absurd (none granted.2) (List.cons_ne_nil _ _)
  · obtain ⟨rfl, rfl⟩ := List.cons.inj parts
    have sound : ∀ p ∈ posted rest, p.Sound := (List.forall_mem_cons.1 holds.sound.1).2
    exact ⟨_, taken, ⟨_, _, holds.requested sound, granted, granted'⟩, lines.room⟩

theorem Lines.replySend (lines : s.Lines settings requests replies q) (encodes : m.Encodes) (some : m.origin ≠ 0) :
    (∃ q', QueueServer.replySend m (s, q) = (.ok (), s, q') ∧ s.Lines settings requests (replies ++ [m]) q') ∨
      replies ≠ [] ∧ QueueServer.replySend m (s, q) = (.error .interrupted, s, q) := by
  obtain ⟨requestBox, replyBox, holds, granted, granted'⟩ := lines.boxes
  have encode := encode_of_sound holds.sound.2
  obtain sent | ⟨more, full⟩ := send_posted holds.replyLine granted'.1 encodes some lines.room
  · have sound : ∀ p ∈ posted (replies ++ [m]), p.Sound :=
      List.forall_mem_map.2 (List.forall_mem_append.2 ⟨encode, List.forall_mem_singleton.2 encodes⟩)
    refine .inl ⟨_, ?_, ⟨_, _, holds.replied sound, granted, granted'⟩, lines.room⟩
    simp only [QueueServer.replySend, holds.runs.isOpen, Bool.false_eq_true, ↓reduceIte,
      Message.encode_of_encodes encodes, QueueRef.send, sent]
  · refine .inr ⟨more, ?_⟩
    simp only [QueueServer.replySend, holds.runs.isOpen, Bool.false_eq_true, ↓reduceIte,
      Message.encode_of_encodes encodes, QueueRef.send, full]
    rfl

end QueueServer

namespace QueueClient

structure Stands (s : QueueServer) (c : QueueClient) : Prop extends c.Attached s where
  isOpen : c.closed = false

namespace Stands

variable (stands : c.Stands s)

include stands

theorem send (lines : s.Lines settings [] replies q) (encodes : m.Encodes) (own : m.origin = c.origin) :
    ∃ q', QueueClient.send m (c, q) = (.ok (), c, q') ∧ s.Lines settings [m] replies q' := by
  obtain ⟨requestBox, replyBox, holds, granted, granted'⟩ := lines.boxes
  have sent := (send_posted holds.requestLine granted.1 encodes (own ▸ stands.some) lines.room).resolve_right
    fun full => full.1 rfl
  have sound : ∀ p ∈ posted [m], p.Sound := List.forall_mem_singleton.2 encodes
  refine ⟨_, ?_, ⟨_, _, holds.requested sound, granted, granted'⟩, lines.room⟩
  simp only [QueueClient.send, stands.isOpen, Bool.false_eq_true, ↓reduceIte, ← own, stampedFrame_of_encodes encodes,
    QueueRef.send, stands.requests, sent]
  rfl

theorem replyReceive (lines : s.Lines settings requests (m :: rest) q)
    (own : ∀ r ∈ m :: rest, r.origin = c.origin) :
    ∃ q', QueueClient.replyReceive (c, q) = (.ok m, c, q') ∧ s.Lines settings requests rest q' := by
  obtain ⟨requestBox, replyBox, holds, granted, granted'⟩ := lines.boxes
  have wanted : ∀ p ∈ posted (m :: rest), p.type = c.origin.toNat :=
    List.forall_mem_map.2 fun r there => congrArg UInt32.toNat (own r there)
  obtain ⟨f, -, -, none⟩ | ⟨front, p, back, parts, type, first, taken⟩ := replyReceive_cases holds stands.toAttached
  · exact absurd (wanted (.message m) List.mem_cons_self) (none stands.isOpen granted'.2 _ List.mem_cons_self)
  · obtain rfl : front = [] := List.eq_nil_iff_forall_not_mem.2 fun o inside =>
      first o inside ((wanted o (by rw [parts]; exact List.mem_append_left _ inside)).trans type.symm)
    obtain ⟨rfl, rfl⟩ := List.cons.inj parts
    have sound : ∀ p ∈ posted rest, p.Sound := (List.forall_mem_cons.1 holds.sound.2).2
    exact ⟨_, taken, ⟨_, _, holds.replied sound, granted, granted'⟩, lines.room⟩

theorem backlog (lines : s.Lines settings requests replies q) :
    (Medium.queues settings).client.backlog (c, q) = replies.length := by
  obtain ⟨requestBox, replyBox, holds, -⟩ := lines.boxes
  change ((q.box? c.replies.id).map (·.letters.length)).getD 0 = _
  rw [stands.replies, holds.replyLine]
  simp [posted]

end Stands

end QueueClient

end Lines

structure QueueSettings.Usable (settings : QueueSettings) (q : Mailboxes) : Prop where
  server : settings.serverKey ≠ 0
  client : settings.clientKey ≠ 0
  apart : settings.serverKey ≠ settings.clientKey
  owned : settings.permissions.toNat &&& 0o600 = 0o600
  noRequests : q.idOf? settings.serverKey = none
  noReplies : q.idOf? settings.clientKey = none
  room : Frame.size ≤ q.capacity

namespace Mailboxes

variable {q : Mailboxes} {key : Int32}

end Mailboxes

def QueueServer.answering (settings : QueueSettings) (server : QueueServer) : (Medium.queues settings).Answering where
  origin := QueueClient.origin
  closed := QueueClient.closed
  Rests cs s q := s = server ∧ s.Lines settings [] [] q ∧ ∀ c ∈ cs, c.Stands s
  Replies _ unread c cs s q := s = server ∧ s.Lines settings [] unread q ∧ (∀ r ∈ unread, r.origin = c.origin) ∧
    ∀ d ∈ c :: cs, d.Stands s
  origin_eq _ _ := rfl
  perm rests same := ⟨rests.1, rests.2.1, fun c there => rests.2.2 c (same.mem_iff.2 there)⟩
  opens := by
    rintro cs s q o ⟨rfl, lines, stand⟩ some -
    obtain ⟨_, _, holds, -⟩ := lines.boxes
    have opened := QueueClient.openOn_eq holds.runs o
    rw [if_neg some] at opened
    exact ⟨_, q, opened, rfl, rfl, rfl, lines, List.forall_mem_cons.2 ⟨⟨⟨some, rfl, rfl⟩, rfl⟩, stand⟩⟩
  closes := by
    rintro c cs s q ⟨rfl, lines, stand⟩
    exact ⟨{ c with closed := true }, q, rfl, rfl, rfl, rfl, lines, (List.forall_mem_cons.1 stand).2⟩
  gone := by
    rintro ⟨origin, requests, replies, closed⟩ q rfl
    rfl
  refuses := by
    intro c asked q closed
    simp [Medium.queues, QueueClient.port, QueueClient.send, closed]
  misfits := by
    rintro c cs s q asked fault ⟨rfl, lines, stand⟩ misfit
    have stands := (List.forall_mem_cons.1 stand).1
    simp [Medium.queues, QueueClient.port, QueueClient.send, stands.isOpen, stampedFrame_of_misfit c.origin misfit]
  idles := by
    rintro cs s q ⟨rfl, lines, stand⟩
    refine ⟨s, q, ?_, rfl, lines, stand⟩
    rw [QueueServer.waiting_receive]
    exact QueueServer.Lines.receive_nil lines
  asks := by
    rintro c cs s q asked ⟨rfl, lines, stand⟩ encodes own
    have stands := (List.forall_mem_cons.1 stand).1
    obtain ⟨q₁, sent, lines₁⟩ := stands.send lines encodes own
    obtain ⟨q₂, received, lines₂⟩ := lines₁.receive_cons
    have listens : (Medium.queues settings).client.replyBegin (c, q₁) = (.ok (), c, q₁) := by
      simp only [Medium.queues, QueueClient.port, QueueClient.replyBegin, stands.isOpen, Bool.false_eq_true, ↓reduceIte]
    have begun : (Medium.queues settings).waiting.replyBegin asked.origin (s, q₂) = (.ok (), s, q₂) := by
      obtain ⟨_, _, holds, -⟩ := lines₂.boxes
      simp only [Medium.waiting, Medium.queues, QueueServer.port, QueueServer.replyBegin, holds.runs.isOpen,
        Bool.false_eq_true, ↓reduceIte]
    exact ⟨(c, q₁), c, q₁, s, q₂, s, q₂, sent, listens, by rw [QueueServer.waiting_receive, received], begun, rfl,
      stands.isOpen, rfl, lines₂, by simp, stand⟩
  sends := by
    rintro unread c cs s q r ⟨rfl, lines, sent, stand⟩ encodes own
    have some : r.origin ≠ 0 := own ▸ (List.forall_mem_cons.1 stand).1.some
    obtain ⟨q', sends, lines'⟩ | full := lines.replySend encodes some
    · exact .inl ⟨s, q', sends, rfl, lines', List.forall_mem_append.2 ⟨sent, List.forall_mem_singleton.2 own⟩, stand⟩
    · exact .inr full
  ends replies := replies
  waits := by
    rintro unread c cs s q ⟨rfl, lines, replied⟩
    refine ⟨s, q, ?_, rfl, lines, replied⟩
    rw [QueueServer.waiting_receive]
    exact QueueServer.Lines.receive_nil lines
  reads := by
    rintro sending r unread c cs s q ⟨rfl, lines, sent, stand⟩
    obtain ⟨q', read, lines'⟩ := (List.forall_mem_cons.1 stand).1.replyReceive lines sent
    exact ⟨q', read, rfl, lines', (List.forall_mem_cons.1 sent).2, stand⟩
  backlog := by
    rintro sending unread c cs s q ⟨rfl, lines, -, stand⟩
    exact ((List.forall_mem_cons.1 stand).1.backlog lines).ge
  replyEnd_eq _ := rfl
  rests := by
    rintro c cs s q ⟨rfl, lines, -, stand⟩
    exact ⟨rfl, lines, stand⟩

end DiscCatalog
