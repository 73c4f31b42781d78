import DiscCatalog.Proofs.Channel.Answering
import DiscCatalog.Proofs.Channel.Loop

namespace DiscCatalog

structure LoopClient.Told (sending : Bool) (unread : List Message) (c : LoopClient) (cs : List LoopClient) (s : LoopServer)
    (l : LoopLine) : Prop where
  isOpen : ∀ d ∈ c :: cs, d.closed = false
  answering : s = ⟨if sending then some c.origin else none⟩
  line : l = { replies := LoopServer.posted c.origin unread }
  encode : ∀ r ∈ unread, r.Encodes

def LoopLine.answering : Medium.loop.Answering where
  origin := LoopClient.origin
  closed := LoopClient.closed
  Rests cs s l := s = ⟨none⟩ ∧ l = {} ∧ ∀ c ∈ cs, c.closed = false
  Replies := LoopClient.Told
  origin_eq _ _ := rfl
  perm rests same := ⟨rests.1, rests.2.1, fun c there => rests.2.2 c (same.mem_iff.2 there)⟩
  opens := by
    rintro cs s l o ⟨rfl, rfl, isOpen⟩ - -
    exact ⟨⟨o, false⟩, {}, rfl, rfl, rfl, rfl, rfl, List.forall_mem_cons.2 ⟨rfl, isOpen⟩⟩
  closes := by
    rintro c cs s l ⟨rfl, rfl, isOpen⟩
    exact ⟨{ c with closed := true }, {}, rfl, rfl, rfl, rfl, rfl, (List.forall_mem_cons.1 isOpen).2⟩
  gone := by
    rintro ⟨origin, closed⟩ l rfl
    rfl
  refuses := by
    intro c asked l closed
    simp [Medium.loop, LoopClient.port, LoopClient.send, closed]
  misfits := by
    rintro c cs s l asked fault ⟨rfl, rfl, isOpen⟩ misfit
    simp [Medium.loop, LoopClient.port, LoopClient.send, isOpen, stampedFrame_of_misfit c.origin misfit]
  idles := by
    rintro cs s l ⟨rfl, rfl, isOpen⟩
    exact ⟨_, _, rfl, rfl, rfl, isOpen⟩
  asks := by
    rintro c cs s l asked ⟨rfl, rfl, isOpen⟩ encodes own
    have still := (List.forall_mem_cons.1 isOpen).1
    have sent : Medium.loop.client.send asked (c, {}) = (.ok (), c, { requests := [asked.frame] }) := by
      simp [Medium.loop, LoopClient.port, LoopClient.send, still, ← own, stampedFrame_of_encodes encodes]
    have listens : Medium.loop.client.replyBegin (c, { requests := [asked.frame] }) =
        (.ok (), c, { requests := [asked.frame] }) := by
      simp only [Medium.loop, LoopClient.port, LoopClient.replyBegin, still, Bool.false_eq_true, ↓reduceIte]
    have received : Medium.loop.waiting.receive (⟨none⟩, { requests := [asked.frame] }) = (.ok asked, ⟨none⟩, {}) := by
      simp only [Medium.waiting, Medium.loop, LoopServer.poll, messageOfRead_frame encodes]
    exact ⟨_, c, _, _, _, _, _, sent, listens, received, rfl, rfl, still, ⟨isOpen, by rw [own]; rfl, rfl, by simp⟩⟩
  sends := by
    rintro unread c cs s l r ⟨isOpen, rfl, rfl, encode⟩ encodes own
    have sent : Medium.loop.waiting.replySend r (⟨some c.origin⟩, { replies := LoopServer.posted c.origin unread }) =
        (.ok (), ⟨some c.origin⟩, { replies := LoopServer.posted c.origin (unread ++ [r]) }) := by
      simp only [Medium.waiting, Medium.loop, LoopServer.port, LoopServer.replySend, Message.encode_of_encodes encodes,
        LoopServer.posted, List.map_append, List.map_cons, List.map_nil]
    exact .inl ⟨_, _, sent, isOpen, rfl, rfl, List.forall_mem_append.2 ⟨encode, List.forall_mem_singleton.2 encodes⟩⟩
  ends := by
    rintro unread c cs s l ⟨isOpen, rfl, rfl, encode⟩
    exact ⟨isOpen, rfl, rfl, encode⟩
  waits := by
    rintro unread c cs s l ⟨isOpen, rfl, rfl, encode⟩
    exact ⟨_, _, rfl, isOpen, rfl, rfl, encode⟩
  reads := by
    rintro sending r unread c cs s l ⟨isOpen, rfl, rfl, encode⟩
    obtain ⟨encodes, others⟩ := List.forall_mem_cons.1 encode
    refine ⟨{ replies := LoopServer.posted c.origin unread }, ?_, isOpen, rfl, rfl, others⟩
    simp [Medium.loop, LoopClient.port, LoopClient.replyReceive, LoopServer.posted, messageOfRead_frame encodes]
  backlog := by
    rintro sending unread c cs s l ⟨-, -, rfl, -⟩
    exact (List.length_map _).ge
  replyEnd_eq _ := rfl
  rests := by
    rintro c cs s l ⟨isOpen, rfl, rfl, -⟩
    exact ⟨rfl, rfl, isOpen⟩

end DiscCatalog
