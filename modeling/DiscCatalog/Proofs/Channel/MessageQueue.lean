import DiscCatalog.Channel.Medium
import DiscCatalog.Proofs.Channel.Loop
import DiscCatalog.Proofs.Channel.NamedPipe
import DiscCatalog.Proofs.Host.Mailboxes

namespace DiscCatalog

open Mailboxes

/-- Something that was put on a queue: the frame of a message, under its origin, or any bytes under any type. -/
inductive Posting where
  | message (m : Message)
  | raw (type : Nat) (payload : List UInt8)
deriving DecidableEq

namespace Posting

def letter : Posting → Letter
  | message m => { type := m.origin.toNat, payload := m.frame }
  | raw type payload => { type, payload }

def type (p : Posting) : Nat := p.letter.type

/-- What receiving it comes to. Of bytes that are too many for a frame, one more than a frame has is seen. -/
def comes : Posting → Except ChannelFault Message
  | message m => .ok m
  | raw _ payload =>
    if payload.length = Frame.size then messageOfRead payload
    else .error (.shortRead Frame.size (min payload.length (Frame.size + 1)))

def Sound : Posting → Prop
  | message m => m.Encodes
  | raw _ _ => True

/-- The messages of a queue, as what anybody put there. -/
def found (letters : List Letter) : List Posting := letters.map fun l => raw l.type l.payload

theorem letters_found (letters : List Letter) : (found letters).map letter = letters := by
  rw [found, List.map_map]
  exact List.map_id _

theorem sound_found {letters : List Letter} : ∀ p ∈ found letters, p.Sound := by
  intro p there
  obtain ⟨l, -, rfl⟩ := List.mem_map.1 there
  trivial

theorem sound_behind {waiting : List Posting} {p : Posting} (sound : ∀ o ∈ waiting, o.Sound) (new : p.Sound) :
    ∀ o ∈ waiting ++ [p], o.Sound :=
  List.forall_mem_append.2 ⟨sound, List.forall_mem_singleton.2 new⟩

theorem messageOfRead_take {p : Posting} (sound : p.Sound) :
    messageOfRead (p.letter.payload.take (Frame.size + 1)) = p.comes := by
  cases p with
  | message m =>
    have short : m.frame.length ≤ Frame.size + 1 := (Message.length_frame sound).trans_le (Nat.le_succ _)
    change messageOfRead (m.frame.take _) = _
    rw [List.take_of_length_le short]
    exact messageOfRead_frame sound
  | raw type payload =>
    change messageOfRead (payload.take _) = _
    rw [comes]
    split
    · next fits => rw [List.take_of_length_le (by omega)]
    · next unfit =>
      rw [messageOfRead, if_pos (by rw [List.length_take]; omega), List.length_take, Nat.min_comm]

end Posting

def consumed : Except ChannelFault Message → Bool
  | .ok _ | .error (.shortRead _ _) | .error (.malformed _ _) => true
  | .error _ => false

theorem consumed_messageOfRead (bytes : List UInt8) : consumed (messageOfRead bytes) = true := by
  unfold messageOfRead
  split
  · rfl
  · cases Message.decode bytes <;> rfl

theorem Posting.consumed_comes (p : Posting) : consumed p.comes = true := by
  cases p with
  | message m => rfl
  | raw type payload =>
    rw [comes]
    split
    · exact consumed_messageOfRead payload
    · rfl

theorem consumed_ofQueue (action : String) (key : Int32) (e : Errno) :
    consumed (.error (.ofQueue action key e)) = false := by
  unfold ChannelFault.ofQueue
  split
  · rfl
  · split <;> rfl

namespace QueueRef

variable {r : QueueRef} {q : Mailboxes} {box : Mailbox} {waiting : List Posting}

/-- Sending fails and changes nothing, or puts the frame behind what waits. -/
theorem send_cases (there : q.box? r.id = some { box with letters := waiting.map Posting.letter }) (m : Message) :
    (∃ f, r.send m.origin m.frame q = (.error f, q)) ∨
      r.send m.origin m.frame q =
        (.ok (), q.refill r.id box ((waiting ++ [Posting.message m]).map Posting.letter)) := by
  unfold send
  obtain ⟨e, failed⟩ | ⟨-, sent⟩ := Mailboxes.send_cases there m.origin.toNat m.frame
  · rw [failed]
    exact .inl ⟨_, rfl⟩
  · rw [sent, List.map_append]
    exact .inr rfl

/-- Receiving fails and changes nothing, or takes the first thing that waits of those asked for. -/
theorem receive_cases (there : q.box? r.id = some { box with letters := waiting.map Posting.letter })
    (sound : ∀ p ∈ waiting, p.Sound) (type : UInt32) :
    (∃ f, r.receive type q = (.error f, q) ∧ consumed (.error f) = false ∧
        (grants box 4 = true → ∀ p ∈ waiting, ¬ Wanted type.toNat p.letter)) ∨
      ∃ front p back, waiting = front ++ p :: back ∧ Wanted type.toNat p.letter ∧
        (∀ o ∈ front, ¬ Wanted type.toNat o.letter) ∧
        r.receive type q = (p.comes, q.refill r.id box ((front ++ back).map Posting.letter)) := by
  unfold receive
  obtain ⟨e, failed, none⟩ | ⟨front, letter, back, parts, wanted, first, taken⟩ :=
    Mailboxes.receive_cases there type.toNat (Frame.size + 1)
  · rw [failed]
    exact .inl ⟨_, rfl, consumed_ofQueue _ _ _, fun granted p inside => none granted _ (List.mem_map_of_mem inside)⟩
  · obtain ⟨front, rest, rfl, rfl, cut⟩ := List.map_eq_append_iff.1 parts
    obtain ⟨p, back, rfl, rfl, rfl⟩ := List.map_eq_cons_iff.1 cut
    rw [taken]
    refine .inr ⟨front, p, back, rfl, wanted, fun o inside => first _ (List.mem_map_of_mem inside), ?_⟩
    dsimp only
    rw [Posting.messageOfRead_take (sound p (by simp)), ← List.map_append]
    rfl

theorem receive_any (there : q.box? r.id = some { box with letters := waiting.map Posting.letter })
    (sound : ∀ p ∈ waiting, p.Sound) :
    (∃ f, r.receive 0 q = (.error f, q) ∧ consumed (.error f) = false ∧ (grants box 4 = true → waiting = [])) ∨
      ∃ p back, waiting = p :: back ∧ r.receive 0 q = (p.comes, q.refill r.id box (back.map Posting.letter)) := by
  obtain ⟨f, failed, kept, none⟩ | ⟨front, p, back, rfl, -, first, taken⟩ := receive_cases there sound 0
  · exact .inl ⟨f, failed, kept, fun granted =>
      List.eq_nil_iff_forall_not_mem.2 fun p inside => none granted p inside (.inl rfl)⟩
  · obtain rfl : front = [] := List.eq_nil_iff_forall_not_mem.2 fun o inside => first o inside (.inl rfl)
    exact .inr ⟨p, back, rfl, taken⟩

theorem receive_typed (there : q.box? r.id = some { box with letters := waiting.map Posting.letter })
    (sound : ∀ p ∈ waiting, p.Sound) {type : UInt32} (some : type ≠ 0) :
    (∃ f, r.receive type q = (.error f, q) ∧ consumed (.error f) = false ∧
        (grants box 4 = true → ∀ p ∈ waiting, p.type ≠ type.toNat)) ∨
      ∃ front p back, waiting = front ++ p :: back ∧ p.type = type.toNat ∧ (∀ o ∈ front, o.type ≠ p.type) ∧
        r.receive type q = (p.comes, q.refill r.id box ((front ++ back).map Posting.letter)) := by
  have wanted_iff : ∀ p : Posting, Wanted type.toNat p.letter ↔ p.type = type.toNat := fun p =>
    or_iff_right fun zero => some (UInt32.toNat_inj.1 zero)
  obtain ⟨f, failed, kept, none⟩ | ⟨front, p, back, rfl, wanted, first, taken⟩ := receive_cases there sound type
  · exact .inl ⟨f, failed, kept, fun granted p inside same => none granted p inside ((wanted_iff p).2 same)⟩
  · have same := (wanted_iff p).1 wanted
    exact .inr ⟨front, p, back, rfl, same, fun o inside other => first o inside ((wanted_iff o).2 (other.trans same)),
      taken⟩

end QueueRef

theorem Mailboxes.findOrAdd_finds {key : Int32} {permissions id : Nat} {q q' : Mailboxes} (some : key ≠ 0)
    (found : q.findOrAdd key permissions = (.ok id, q')) :
    q'.idOf? key = .some id ∧ ∀ other n, q.idOf? other = .some n → q'.idOf? other = .some n := by
  unfold findOrAdd at found
  cases known : q.idOf? key with
  | none =>
    rw [known] at found
    cases found
    exact ⟨idOf?_add_self permissions some known, fun _ _ there => idOf?_add key permissions there⟩
  | some n =>
    rw [known] at found
    dsimp only at found
    split at found
    · split at found
      · cases found
        exact ⟨known, fun _ _ there => there⟩
      · cases found
    · cases found

structure QueueServer.Runs (settings : QueueSettings) (s : QueueServer) (q : Mailboxes) : Prop where
  isOpen : s.closed = false
  requests : q.idOf? settings.serverKey = some s.requests.id
  replies : q.idOf? settings.clientKey = some s.replies.id

namespace QueueServer

variable {settings : QueueSettings} {s : QueueServer} {q q' : Mailboxes}

theorem Runs.ids_ne (runs : s.Runs settings q) (apart : settings.serverKey ≠ settings.clientKey) :
    s.requests.id ≠ s.replies.id := idOf?_ne runs.requests runs.replies apart

theorem Runs.refill (runs : s.Runs settings q) {id : Nat} {box : Mailbox} (there : q.box? id = some box)
    {letters : List Letter} : s.Runs settings (q.refill id box letters) where
  isOpen := runs.isOpen
  requests := (idOf?_refill there _).trans runs.requests
  replies := (idOf?_refill there _).trans runs.replies

theorem openOn_runs (server : settings.serverKey ≠ 0) (client : settings.clientKey ≠ 0)
    (opened : openOn settings q = (.ok s, q')) : s.Runs settings q' := by
  unfold openOn at opened
  dsimp only at opened
  rcases first : q.findOrAdd settings.serverKey (settings.permissions.toNat &&& 0o777) with ⟨e | requests, q₁⟩
  · rw [first] at opened
    cases opened
  rw [first] at opened
  dsimp only at opened
  rcases second : q₁.findOrAdd settings.clientKey (settings.permissions.toNat &&& 0o777) with ⟨e | replies, q₂⟩
  · rw [second] at opened
    cases opened
  rw [second] at opened
  cases opened
  obtain ⟨there, kept⟩ := findOrAdd_finds client second
  exact ⟨rfl, kept _ _ (findOrAdd_finds server first).1, there⟩

end QueueServer

structure QueueClient.Attached (s : QueueServer) (c : QueueClient) : Prop where
  some : c.origin ≠ 0
  requests : c.requests.id = s.requests.id
  replies : c.replies.id = s.replies.id

theorem QueueClient.openOn_eq {settings : QueueSettings} {s : QueueServer} {q : Mailboxes}
    (runs : s.Runs settings q) (origin : UInt32) :
    openOn settings origin q = if origin = 0 then (.error (.invalidOrigin origin), q)
      else (.ok { origin, requests := ⟨settings.serverKey, s.requests.id⟩, replies := ⟨settings.clientKey, s.replies.id⟩ },
        q) := by
  have attach_eq : ∀ {key : Int32} {id : Nat}, q.idOf? key = some id → attach key q = (.ok ⟨key, id⟩, q) := by
    intro key id there
    rw [attach, if_neg (idOf?_eq_some there).1, find, there]
  simp only [openOn, attach_eq runs.requests, attach_eq runs.replies]

theorem QueueClient.openOn_attached {settings : QueueSettings} {s : QueueServer} {q : Mailboxes}
    (runs : s.Runs settings q) (origin : UInt32) :
    (∃ f, openOn settings origin q = (.error f, q)) ∨
      ∃ c : QueueClient, c.Attached s ∧ c.origin = origin ∧ c.closed = false ∧
        openOn settings origin q = (.ok c, q) := by
  rw [openOn_eq runs]
  split
  · exact .inl ⟨_, rfl⟩
  · next some => exact .inr ⟨_, ⟨some, rfl, rfl⟩, rfl, rfl, rfl⟩

structure QueueServer.Holds (settings : QueueSettings) (s : QueueServer) (requestBox replyBox : Mailbox)
    (requests replies : List Posting) (q : Mailboxes) : Prop where
  runs : s.Runs settings q
  apart : s.requests.id ≠ s.replies.id
  requestLine : q.box? s.requests.id = some { requestBox with letters := requests.map Posting.letter }
  replyLine : q.box? s.replies.id = some { replyBox with letters := replies.map Posting.letter }
  sound : (∀ p ∈ requests, p.Sound) ∧ ∀ p ∈ replies, p.Sound

section Lines

variable {settings : QueueSettings} {s : QueueServer} {requestBox replyBox : Mailbox}
  {requests replies left : List Posting} {q : Mailboxes}

namespace QueueServer

theorem Holds.requested (holds : s.Holds settings requestBox replyBox requests replies q)
    (sound : ∀ p ∈ left, p.Sound) :
    s.Holds settings requestBox replyBox left replies (q.refill s.requests.id requestBox (left.map Posting.letter)) where
  runs := holds.runs.refill holds.requestLine
  apart := holds.apart
  requestLine := (box?_refill holds.requestLine).trans (if_pos rfl)
  replyLine := (box?_refill holds.requestLine).trans ((if_neg holds.apart.symm).trans holds.replyLine)
  sound := ⟨sound, holds.sound.2⟩

theorem Holds.replied (holds : s.Holds settings requestBox replyBox requests replies q)
    (sound : ∀ p ∈ left, p.Sound) :
    s.Holds settings requestBox replyBox requests left (q.refill s.replies.id replyBox (left.map Posting.letter)) where
  runs := holds.runs.refill holds.replyLine
  apart := holds.apart
  requestLine := (box?_refill holds.replyLine).trans ((if_neg holds.apart).trans holds.requestLine)
  replyLine := (box?_refill holds.replyLine).trans (if_pos rfl)
  sound := ⟨holds.sound.1, sound⟩

theorem Holds.elsewhere (holds : s.Holds settings requestBox replyBox requests replies q) {id : Nat} {box : Mailbox}
    {letters : List Letter} (there : q.box? id = some box) (request : s.requests.id ≠ id) (reply : s.replies.id ≠ id) :
    s.Holds settings requestBox replyBox requests replies (q.refill id box letters) where
  runs := holds.runs.refill there
  apart := holds.apart
  requestLine := (box?_refill there).trans ((if_neg request).trans holds.requestLine)
  replyLine := (box?_refill there).trans ((if_neg reply).trans holds.replyLine)
  sound := holds.sound

theorem Holds.keys_ne (holds : s.Holds settings requestBox replyBox requests replies q) :
    settings.serverKey ≠ settings.clientKey := fun same =>
  holds.apart (Option.some.inj (holds.runs.requests.symm.trans ((congrArg q.idOf? same).trans holds.runs.replies)))

/-- Receiving takes the first thing that waits for the server, or fails and takes nothing. -/
theorem receive_cases (holds : s.Holds settings requestBox replyBox requests replies q) :
    (∃ f, receive (s, q) = (.error f, s, q) ∧ consumed (.error f) = false ∧
        (grants requestBox 4 = true → requests = [])) ∨
      ∃ p left, requests = p :: left ∧ receive (s, q) = (p.comes, s, q.refill s.requests.id requestBox
        (left.map Posting.letter)) := by
  unfold receive
  simp only [holds.runs.isOpen, Bool.false_eq_true, ↓reduceIte]
  obtain ⟨f, failed, kept, none⟩ | ⟨p, left, rfl, taken⟩ := QueueRef.receive_any holds.requestLine holds.sound.1
  · rw [failed]
    exact .inl ⟨f, rfl, kept, none⟩
  · rw [taken]
    exact .inr ⟨p, left, rfl, rfl⟩

theorem poll_eq_receive (w : QueueServer × Mailboxes) :
    poll w = (if (receive w).1 = .error .interrupted then none else some (receive w).1, (receive w).2) := by
  unfold poll
  rcases receive w with ⟨f | m, w'⟩
  · cases f <;> rfl
  · rfl

theorem replySend_cases (holds : s.Holds settings requestBox replyBox requests replies q) (m : Message) :
    (∃ f, replySend m (s, q) = (.error f, s, q)) ∨
      m.Encodes ∧ replySend m (s, q) = (.ok (), s, q.refill s.replies.id replyBox
        ((replies ++ [Posting.message m]).map Posting.letter)) := by
  unfold replySend
  simp only [holds.runs.isOpen, Bool.false_eq_true, ↓reduceIte]
  by_cases encodes : m.Encodes
  · rw [Message.encode_of_encodes encodes]
    dsimp only
    obtain ⟨f, failed⟩ | sent := QueueRef.send_cases holds.replyLine m
    · rw [failed]
      exact .inl ⟨f, rfl⟩
    · rw [sent]
      exact .inr ⟨encodes, rfl⟩
  · cases misfit : m.encode with
    | error f => exact .inl ⟨_, rfl⟩
    | ok frame => exact absurd ⟨frame, misfit⟩ encodes

end QueueServer

namespace QueueClient

variable {c : QueueClient}

/-- A request goes behind what waits for the server, with the origin of its client, or nowhere. -/
theorem send_cases (holds : s.Holds settings requestBox replyBox requests replies q) (attached : c.Attached s)
    (m : Message) :
    (∃ f, send m (c, q) = (.error f, c, q)) ∨
      ({ m with origin := c.origin } : Message).Encodes ∧ send m (c, q) = (.ok (), c, q.refill s.requests.id requestBox
        ((requests ++ [Posting.message { m with origin := c.origin }]).map Posting.letter)) := by
  unfold send
  dsimp only
  split
  · exact .inl ⟨_, rfl⟩
  · cases stamped : stampedFrame c.origin m with
    | error f => exact .inl ⟨_, rfl⟩
    | ok frame =>
      obtain ⟨rfl, encodes⟩ := stampedFrame_eq_ok stamped
      dsimp only
      obtain ⟨f, failed⟩ | sent := QueueRef.send_cases (attached.requests ▸ holds.requestLine)
        { m with origin := c.origin }
      · rw [failed]
        exact .inl ⟨f, rfl⟩
      · rw [sent, attached.requests]
        exact .inr ⟨encodes, rfl⟩

/-- Receiving takes the first thing that waits for the client's origin, or fails and takes nothing. -/
theorem replyReceive_cases (holds : s.Holds settings requestBox replyBox requests replies q)
    (attached : c.Attached s) :
    (∃ f, replyReceive (c, q) = (.error f, c, q) ∧ consumed (.error f) = false ∧
        (c.closed = false → grants replyBox 4 = true → ∀ p ∈ replies, p.type ≠ c.origin.toNat)) ∨
      ∃ front p back, replies = front ++ p :: back ∧ p.type = c.origin.toNat ∧ (∀ o ∈ front, o.type ≠ p.type) ∧
        replyReceive (c, q) = (p.comes, c, q.refill s.replies.id replyBox ((front ++ back).map Posting.letter)) := by
  unfold replyReceive
  dsimp only
  split
  · next closed => exact .inl ⟨_, rfl, rfl, fun isOpen => by cases closed.symm.trans isOpen⟩
  · obtain ⟨f, failed, kept, none⟩ | ⟨front, p, back, rfl, same, first, taken⟩ :=
      QueueRef.receive_typed (attached.replies ▸ holds.replyLine) holds.sound.2 attached.some
    · rw [failed]
      exact .inl ⟨f, rfl, kept, fun _ => none⟩
    · rw [taken, attached.replies]
      exact .inr ⟨front, p, back, rfl, same, first, rfl⟩

end QueueClient

end Lines

end DiscCatalog
