import DiscCatalog.Proofs.Server.Calls
import DiscCatalog.Proofs.Server.Encoding
import DiscCatalog.Proofs.Store.Repository

namespace DiscCatalog

/-- A reply that goes where `m` came from and is about the operation that `m` asks for. -/
structure Message.Answers (r m : Message) : Prop where
  origin : r.origin = m.origin
  operation : r.operation = m.operation

namespace Message

theorem answers_found (m : Message) (e : CatalogEntry) : (m.found e).Answers m := ⟨rfl, rfl⟩

theorem answers_noMore (m : Message) : m.noMore.Answers m := ⟨rfl, rfl⟩

theorem answers_cutShort (m : Message) (cause : ChannelFault) : (m.cutShort cause).Answers m := ⟨rfl, rfl⟩

end Message

namespace ServerCall

/-- What is sent in answer to a message within its reply session. -/
inductive Replies (m : Message) : List ServerCall → Prop
  | single {r : Message} {outcome : Except ChannelFault Unit} :
      m.operation ≠ .findCatalog → r.Answers m → Replies m [.sent r outcome]
  | complete (found : List Message) {last : Message} {outcome : Except ChannelFault Unit} :
      m.operation = .findCatalog → (∀ r ∈ found, r.Answers m ∧ r.status = .ok) →
      last.Answers m → last.status = .noMoreResults → last.catalog = {} →
      Replies m (found.map (.sent · (.ok ())) ++ [.sent last outcome])
  | cutShort (found : List Message) {next last : Message} {cause : ChannelFault} {outcome : Except ChannelFault Unit} :
      m.operation = .findCatalog → (∀ r ∈ found, r.Answers m ∧ r.status = .ok) →
      next.Answers m → next.status = .ok → last.Answers m → last.status = .failed → last.catalog = {} →
      Replies m (found.map (.sent · (.ok ())) ++ [.sent next (.error cause), .sent last outcome])

inductive Block : List ServerCall → Prop
  | unanswered {outcome : Except ChannelFault Message} : addressee outcome = none → Block [.received outcome]
  | refused {outcome : Except ChannelFault Message} {origin : UInt32} {fault : ChannelFault} :
      addressee outcome = some origin → Block [.received outcome, .begun origin (.error fault)]
  | answered {m : Message} {sends : List ServerCall} :
      Replies m sends → Block (.received (.ok m) :: .begun m.origin (.ok ()) :: (sends ++ [.ended]))
  | rejected {origin : UInt32} {cause : FrameFault} {r : Message} {outcome : Except ChannelFault Unit} :
      r.origin = origin →
      Block [.received (.error (.malformed (some origin) cause)), .begun origin (.ok ()), .sent r outcome, .ended]

def bySession : (current : Option UInt32) → List ServerCall → List (UInt32 × Message)
  | _, [] => []
  | _, .begun origin (.ok ()) :: rest => bySession (some origin) rest
  | some origin, .sent m _ :: rest => (origin, m) :: bySession (some origin) rest
  | _, .ended :: rest => bySession none rest
  | current, _ :: rest => bySession current rest

def byOrigin (calls : List ServerCall) : List (UInt32 × Message) :=
  calls.filterMap fun
    | .sent m _ => some (m.origin, m)
    | _ => none

/-- Blocks of calls in which every message goes to the client of its session, however it is routed. -/
structure Sessions (blocks : List (List ServerCall)) : Prop where
  each : ∀ block ∈ blocks, Block block
  routed : bySession none blocks.flatten = byOrigin blocks.flatten

variable {m r : Message} {sends block : List ServerCall}

theorem Replies.addressed (h : Replies m sends) :
    ∀ call ∈ sends, ∃ r outcome, call = .sent r outcome ∧ r.Answers m := by
  cases h with
  | single _ answers =>
    intro call there
    cases List.mem_singleton.1 there
    exact ⟨_, _, rfl, answers⟩
  | complete _ _ found last =>
    intro call there
    obtain there | there := List.mem_append.1 there
    · obtain ⟨r, isFound, rfl⟩ := List.mem_map.1 there
      exact ⟨r, _, rfl, (found r isFound).1⟩
    · cases List.mem_singleton.1 there
      exact ⟨_, _, rfl, last⟩
  | cutShort _ _ found next _ last =>
    intro call there
    obtain there | there := List.mem_append.1 there
    · obtain ⟨r, isFound, rfl⟩ := List.mem_map.1 there
      exact ⟨r, _, rfl, (found r isFound).1⟩
    · obtain rfl | there := List.mem_cons.1 there
      · exact ⟨_, _, rfl, next⟩
      · cases List.mem_singleton.1 there
        exact ⟨_, _, rfl, last⟩

theorem Replies.found (h : Replies m sends) (search : m.operation = .findCatalog) (answers : r.Answers m)
    (status : r.status = .ok) : Replies m (.sent r (.ok ()) :: sends) := by
  cases h with
  | single other => exact absurd search other
  | complete before _ found last ends empty =>
    exact .complete (r :: before) search (List.forall_mem_cons.2 ⟨⟨answers, status⟩, found⟩) last ends empty
  | cutShort before _ found next ok last ends empty =>
    exact .cutShort (r :: before) search (List.forall_mem_cons.2 ⟨⟨answers, status⟩, found⟩) next ok last ends empty

theorem bySession_sends {origin : UInt32} (rest : List ServerCall)
    (h : ∀ call ∈ sends, ∃ r outcome, call = .sent r outcome ∧ r.origin = origin) :
    bySession (some origin) (sends ++ .ended :: rest) = byOrigin sends ++ bySession none rest := by
  induction sends with
  | nil => rfl
  | cons call sends ih =>
    obtain ⟨r, outcome, rfl, rfl⟩ := h call List.mem_cons_self
    have later := ih fun c there => h c (List.mem_cons_of_mem _ there)
    rw [List.cons_append, bySession, later]
    rfl

theorem bySession_block (h : Block block) (rest : List ServerCall) :
    bySession none (block ++ rest) = byOrigin block ++ bySession none rest := by
  cases h with
  | unanswered | refused => rfl
  | @answered m sends replies =>
    have addressed : ∀ call ∈ sends, ∃ r outcome, call = .sent r outcome ∧ r.origin = m.origin := by
      intro call there
      obtain ⟨r, outcome, same, answers⟩ := replies.addressed call there
      exact ⟨r, outcome, same, answers.origin⟩
    have sent : byOrigin (.received (.ok m) :: .begun m.origin (.ok ()) :: (sends ++ [.ended])) = byOrigin sends := by
      simp [byOrigin]
    rw [sent, ← bySession_sends rest addressed]
    simp [bySession]
  | rejected same =>
    subst same
    rfl

theorem sessions_of_blocks {blocks : List (List ServerCall)} (each : ∀ block ∈ blocks, Block block) :
    Sessions blocks := by
  refine ⟨each, ?_⟩
  induction blocks with
  | nil => rfl
  | cons block blocks ih =>
    have later := ih fun b there => each b (List.mem_cons_of_mem _ there)
    rw [List.flatten_cons, bySession_block (each block List.mem_cons_self), later]
    exact List.filterMap_append.symm

end ServerCall

namespace Server

variable {τ : Type} (port : ServerPort τ)

/-- A store, and a channel on which notes are taken. -/
abbrev Noted (τ : Type) := (Repository × Host) × τ × List ServerCall

/-- The notes after some calls are those before and these calls. -/
def Notes (s t : Noted τ) (calls : List ServerCall) : Prop := t.2.2 = s.2.2 ++ calls

abbrev notedStore (τ : Type) : RecordStore (Noted τ) := Repository.recordStore.beside _

abbrev notedPort : ServerPort (Noted τ) := port.noting.beside _

theorem Notes.trans {s t u : Noted τ} {calls more : List ServerCall} (h : Notes s t calls) (k : Notes t u more) :
    Notes s u (calls ++ more) := by
  rw [Notes, k, h, List.append_assoc]

theorem notes_replySend (r : Message) (s : Noted τ) :
    Notes s ((notedPort port).replySend r s).2 [.sent r ((notedPort port).replySend r s).1] := rfl

theorem stream_replies {m : Message} (search : m.operation = .findCatalog) (query : String) {room : Nat} (first : Bool)
    (s : Noted τ) (enough : (s.1.1.pending query first).length < room) :
    ∃ sends, ServerCall.Replies m sends ∧
      Notes s (stream (notedStore τ) (notedPort port) m query room first s) sends := by
  induction room generalizing first s with
  | zero => exact absurd enough (Nat.not_lt_zero _)
  | succ room ih =>
    have scanned : (notedStore τ).findNext query first s =
        ((s.1.1.findNext query first).1, ((s.1.1.findNext query first).2, s.1.2), s.2) := rfl
    cases found : s.1.1.pending query first with
    | nil =>
      rw [Repository.findNext_of_nil found] at scanned
      rw [stream_ended scanned]
      exact ⟨_, .complete [] search (by simp) m.answers_noMore rfl rfl,
        notes_replySend port m.noMore _⟩
    | cons e rest =>
      obtain ⟨given, left⟩ := Repository.findNext_of_cons found
      rw [given] at scanned
      generalize scan : (((s.1.1.findNext query first).2, s.1.2), s.2) = t at scanned
      have same : Notes s t [] := by rw [Notes, ← scan, List.append_nil]
      have sent := same.trans (notes_replySend port (m.found e) t)
      rcases taken : (notedPort port).replySend (m.found e) t with ⟨cause | ⟨⟩, u⟩
      · rw [taken] at sent
        rw [stream_lost scanned taken]
        exact ⟨_, .cutShort [] search (by simp) (m.answers_found e) rfl (m.answers_cutShort cause) rfl rfl,
          sent.trans (notes_replySend port (m.cutShort cause) u)⟩
      · rw [taken] at sent
        rw [stream_sent scanned taken]
        have store : u.1 = t.1 := congrArg (fun x : _ × Noted τ => x.2.1) taken.symm
        have fewer : (u.1.1.pending query false).length < room := by
          rw [store, ← scan, left]
          rw [found, List.length_cons] at enough
          omega
        obtain ⟨sends, replies, more⟩ := ih false u fewer
        exact ⟨_, replies.found search (m.answers_found e) rfl, sent.trans more⟩

theorem answer_replies (m : Message) (s : Noted τ) :
    ∃ sends, ServerCall.Replies m sends ∧ Notes s (answer (notedStore τ) (notedPort port) m s) sends := by
  unfold answer Message.request
  cases operation : m.operation with
  | findCatalog =>
    exact stream_replies port operation _ true s (Nat.lt_succ_of_le (s.1.1.length_pending_le _ true))
  | getCatalog =>
    dsimp only
    exact ⟨_, .single (r := { m.reply .ok with catalog := _ }) (by rw [operation]; decide) ⟨rfl, rfl⟩,
      notes_replySend port _ s⟩
  | getTrack =>
    dsimp only
    exact ⟨_, .single (r := { m.reply .ok with track := _ }) (by rw [operation]; decide) ⟨rfl, rfl⟩,
      notes_replySend port _ s⟩
  | createDatabase | addCatalog | addTrack | deleteCatalog | deleteTrack =>
    dsimp only [changeOf]
    obtain ⟨origin, about⟩ := conclusion_addressed m ((notedStore τ).change _ s).1
    exact ⟨_, .single (by rw [operation]; decide) ⟨origin, about⟩, notes_replySend port _ ((notedStore τ).change _ s).2⟩

theorem dispatch_notes (m : Message) (s : Noted τ) :
    ∃ calls, ServerCall.Block (.received (.ok m) :: calls) ∧
      Notes s (dispatch (notedStore τ) (notedPort port) m s) calls := by
  rcases begun : port.replyBegin m.origin s.2.1 with ⟨fault | ⟨⟩, w⟩
  · rw [dispatch_unbegun (ServerPort.replyBegin_noting begun)]
    exact ⟨_, .refused rfl, rfl⟩
  · rw [dispatch_begun (ServerPort.replyBegin_noting begun)]
    obtain ⟨sends, replies, noted⟩ := answer_replies port m (s.1, w, s.2.2 ++ [.begun m.origin (.ok ())])
    have begins : Notes s (s.1, w, s.2.2 ++ [.begun m.origin (.ok ())]) [.begun m.origin (.ok ())] := rfl
    exact ⟨_, .answered replies, (begins.trans noted).trans rfl⟩

theorem reject_notes (origin : UInt32) (cause : FrameFault) (s : Noted τ) :
    ∃ calls, ServerCall.Block (.received (.error (.malformed (some origin) cause)) :: calls) ∧
      Notes s (reject (notedPort port) origin cause s) calls := by
  rcases begun : port.replyBegin origin s.2.1 with ⟨fault | ⟨⟩, w⟩
  · rw [reject_unbegun (ServerPort.replyBegin_noting begun)]
    exact ⟨_, .refused rfl, rfl⟩
  · rw [reject_begun (ServerPort.replyBegin_noting begun)]
    have begins : Notes s (s.1, w, s.2.2 ++ [.begun origin (.ok ())]) [.begun origin (.ok ())] := rfl
    exact ⟨_, .rejected rfl, (begins.trans (notes_replySend port _ _)).trans rfl⟩

theorem handleNext_notes (v : Service (Noted τ)) :
    ∃ block, ServerCall.Block block ∧
      Notes v.world (handleNext (notedStore τ) (notedPort port) v).2.world block := by
  rcases taken : port.receive v.world.2.1 with ⟨outcome, w⟩
  have first : Notes v.world (v.world.1, w, v.world.2.2 ++ [.received outcome]) [.received outcome] := rfl
  obtain ⟨m, rfl, done⟩ | ⟨origin, cause, rfl, done⟩ | ⟨fault, rfl, unread, done⟩ :=
    handleNext_cases (notedStore τ) (ServerPort.receive_noting taken)
  · obtain ⟨calls, block, noted⟩ := dispatch_notes port m (v.world.1, w, v.world.2.2 ++ [.received (.ok m)])
    rw [done]
    exact ⟨_, block, first.trans noted⟩
  · obtain ⟨calls, block, noted⟩ := reject_notes port origin cause
      (v.world.1, w, v.world.2.2 ++ [.received (.error (.malformed (some origin) cause))])
    rw [done]
    exact ⟨_, block, first.trans noted⟩
  · rw [done]
    exact ⟨_, .unanswered (ServerCall.addressee_eq_none unread), first⟩

theorem receiving_notes (count : Nat) (v : Service (Noted τ)) :
    ∃ blocks : List (List ServerCall), blocks.length = count ∧ (∀ block ∈ blocks, ServerCall.Block block) ∧
      Notes v.world (receiving (notedStore τ) (notedPort port) count v).world blocks.flatten := by
  induction count generalizing v with
  | zero => exact ⟨[], rfl, by simp, (List.append_nil _).symm⟩
  | succ count ih =>
    obtain ⟨block, one, noted⟩ := handleNext_notes port v
    obtain ⟨blocks, length, each, more⟩ := ih (handleNext (notedStore τ) (notedPort port) v).2
    exact ⟨block :: blocks, by rw [List.length_cons, length], List.forall_mem_cons.2 ⟨one, each⟩, noted.trans more⟩

/-- Over every store and every channel, the calls of a server fall into one block for each receive, in
this order, and a run that is stopped closes the channel after the last of them. -/
theorem calls_in_sessions (repository : Repository) (host : Host) (w : τ) :
    let start : Service (Noted τ) := { world := ((repository, host), w, []) }
    (∀ count, ∃ blocks, blocks.length = count ∧ ServerCall.Sessions blocks ∧
      (receiving (notedStore τ) (notedPort port) count start).world.2.2 = blocks.flatten) ∧
    ∀ stop, ∃ blocks, ServerCall.Sessions blocks ∧
      (runUntil (notedStore τ) (notedPort port) stop start).service.world.2.2 = blocks.flatten ++ [.closed] := by
  intro start
  constructor
  · intro count
    obtain ⟨blocks, length, each, noted⟩ := receiving_notes port count start
    exact ⟨blocks, length, ServerCall.sessions_of_blocks each, noted⟩
  · intro stop
    obtain ⟨count, same⟩ := runUntil_eq_receiving (notedStore τ) (notedPort port) stop start
    obtain ⟨blocks, -, each, noted⟩ := receiving_notes port count start
    refine ⟨blocks, ServerCall.sessions_of_blocks each, ?_⟩
    rw [same]
    exact congrArg (· ++ [ServerCall.closed]) noted

end Server

end DiscCatalog
