import Mathlib.Data.List.Forall2
import DiscCatalog.Proofs.Server.Calls
import DiscCatalog.Proofs.Server.Encoding
import DiscCatalog.Proofs.Session.Loop

namespace DiscCatalog

namespace Message

structure Twin (m m' : Message) : Prop where
  origin : m.origin = m'.origin
  request : m.request = m'.request

/-- Replies that agree in everything but the slots that they repeat from their requests. -/
structure Alike (r r' : Message) : Prop where
  origin : r.origin = r'.origin
  operation : r.operation = r'.operation
  status : r.status = r'.status
  diagnostic : r.diagnostic = r'.diagnostic
  catalog : r.operation = .getCatalog ∨ r.operation = .findCatalog → r.catalog = r'.catalog
  track : r.operation = .getTrack → r.track = r'.track

/-- A reply that reports a failure has its diagnostic from the store or from an earlier call on the
channel, and any other reply has none. -/
inductive Explained (refused : StoreFault → Prop) (calls : List ServerCall) (r : Message) : Prop
  | silent : r.status ≠ .failed → r.diagnostic = "" → Explained refused calls r
  | refusal (f : StoreFault) : r.status = .failed → refused f →
      r.diagnostic = fitDiagnostic (commandFailed f.message) → Explained refused calls r
  | loss (lost : Message) (cause : ChannelFault) : r.status = .failed → .sent lost (.error cause) ∈ calls →
      r.diagnostic = fitDiagnostic (commandFailed cause.message) → Explained refused calls r

theorem operation_request (m : Message) : m.request.operation = m.operation := by
  unfold request
  cases m.operation <;> rfl

theorem unanswered_of_changes {m : Message} {c : Change} (changes : Server.changeOf m.request = some c) :
    ¬(m.operation = .getCatalog ∨ m.operation = .findCatalog) ∧ m.operation ≠ .getTrack := by
  unfold request at changes
  cases operation : m.operation with
  | getCatalog | getTrack | findCatalog =>
    rw [operation] at changes
    cases changes
  | createDatabase | addCatalog | addTrack | deleteCatalog | deleteTrack => decide

namespace Twin

variable {m m' : Message} (same : m.Twin m')

include same

theorem operation : m.operation = m'.operation := by
  rw [← operation_request, ← operation_request, same.request]

theorem found (search : m.operation = .findCatalog) (e : CatalogEntry) : (m.found e).Alike (m'.found e) :=
  ⟨same.origin, same.operation, rfl, rfl, fun _ => rfl, fun track => absurd (search.symm.trans track) (by decide)⟩

theorem noMore (search : m.operation = .findCatalog) : m.noMore.Alike m'.noMore :=
  ⟨same.origin, same.operation, rfl, rfl, fun _ => rfl, fun track => absurd (search.symm.trans track) (by decide)⟩

theorem cutShort (search : m.operation = .findCatalog) (cause : ChannelFault) :
    (m.cutShort cause).Alike (m'.cutShort cause) :=
  ⟨same.origin, same.operation, rfl, rfl, fun _ => rfl, fun track => absurd (search.symm.trans track) (by decide)⟩

theorem conclusion {c : Change} (changes : Server.changeOf m.request = some c) (outcome : Except StoreFault Unit) :
    (m.conclusion outcome).Alike (m'.conclusion outcome) := by
  obtain ⟨unsearched, untracked⟩ := unanswered_of_changes changes
  cases outcome <;>
    exact ⟨same.origin, same.operation, rfl, rfl, fun looks => absurd looks unsearched, fun looks => absurd looks untracked⟩

end Twin

end Message

namespace ServerCall

def fate : ServerCall → Except ChannelFault Unit
  | .received outcome => outcome.map fun _ => ()
  | .begun _ outcome | .sent _ outcome => outcome
  | .ended | .closed => .ok ()

/-- Every call of the one list came to what the call at its place in the other came to. -/
def SameFates (calls calls' : List ServerCall) : Prop :=
  ∀ (n : Nat) (call call' : ServerCall), calls[n]? = some call → calls'[n]? = some call' → call.fate = call'.fate

/-- The same call within a dispatch, up to the slots that a reply repeats. -/
inductive Alike : ServerCall → ServerCall → Prop
  | begun (origin : UInt32) (outcome : Except ChannelFault Unit) : Alike (.begun origin outcome) (.begun origin outcome)
  | sent {r r' : Message} (outcome : Except ChannelFault Unit) : r.Alike r' → Alike (.sent r outcome) (.sent r' outcome)
  | ended : Alike .ended .ended

theorem SameFates.next {calls calls' before before' : List ServerCall} {call call' : ServerCall}
    (h : SameFates calls calls') (level : before.length = before'.length) (goes : before ++ [call] <+: calls)
    (goes' : before' ++ [call'] <+: calls') : call.fate = call'.fate := by
  obtain ⟨rest, rfl⟩ := goes
  obtain ⟨rest', rfl⟩ := goes'
  exact h before.length call call' (by simp) (by simp [level])

theorem SameFates.of_prefix {calls calls' before before' : List ServerCall} (h : SameFates calls calls')
    (goes : before <+: calls) (goes' : before' <+: calls') : SameFates before before' := by
  intro n call call' here here'
  obtain ⟨within, rfl⟩ := List.getElem?_eq_some_iff.1 here
  obtain ⟨within', rfl⟩ := List.getElem?_eq_some_iff.1 here'
  exact h n _ _ (List.prefix_iff_getElem?.1 goes n within) (List.prefix_iff_getElem?.1 goes' n within')

theorem SameFates.of_map_eq {calls calls' : List ServerCall} (h : calls.map fate = calls'.map fate) :
    SameFates calls calls' := by
  intro n call call' here here'
  have same := congrArg (·[n]?) h
  simpa [here, here'] using same

end ServerCall

namespace Server

section Steps

variable {σ : Type} {store : RecordStore σ} {port : ServerPort σ}

def afterMatch (store : RecordStore σ) (port : ServerPort σ) (m : Message) (query : String) (room : Nat) :
    Except ChannelFault Unit × σ → σ
  | (.ok (), s) => stream store port m query room false s
  | (.error cause, s) => (port.replySend (m.cutShort cause) s).2

theorem stream_of_some {m : Message} {query : String} {room : Nat} {first : Bool} {s t : σ} {e : CatalogEntry}
    (scanned : store.findNext query first s = (some e, t)) :
    stream store port m query (room + 1) first s =
      afterMatch store port m query room (port.replySend (m.found e) t) := by
  rw [stream, scanned]
  rfl

def conclude (store : RecordStore σ) (port : ServerPort σ) (m : Message) (c : Change) (s : σ) : σ :=
  (port.replySend (m.conclusion (store.change c s).1) (store.change c s).2).2

def afterBegin (store : RecordStore σ) (port : ServerPort σ) (m : Message) : Except ChannelFault Unit × σ → σ
  | (.ok (), s) => port.replyEnd (answer store port m s)
  | (.error _, s) => s

theorem dispatch_eq (m : Message) (s : σ) :
    dispatch store port m s = afterBegin store port m (port.replyBegin m.origin s) := by
  unfold dispatch
  obtain ⟨_ | _, s⟩ := port.replyBegin m.origin s <;> rfl

end Steps

section Runs

variable {ρ τ τ' : Type} {store : RecordStore ρ} {port : ServerPort τ} {port' : ServerPort τ'} {m m' r r' : Message}
  {refused : StoreFault → Prop} {s t u : ρ × τ × List ServerCall} {s' : ρ × τ' × List ServerCall}

theorem findNext_beside (store : RecordStore ρ) (query : String) (first : Bool) (s : ρ × τ × List ServerCall) :
    (store.beside _).findNext query first s =
      ((store.findNext query first s.1).1, (store.findNext query first s.1).2, s.2) := rfl

def Explains (refused : StoreFault → Prop) (s t : ρ × τ × List ServerCall) : Prop :=
  ∃ calls, t.2.2 = s.2.2 ++ calls ∧
    ∀ before r outcome after, calls = before ++ .sent r outcome :: after → r.Explained refused (s.2.2 ++ before)

theorem Explains.grows (h : Explains refused s t) : s.2.2 <+: t.2.2 := by
  obtain ⟨calls, noted, -⟩ := h
  exact ⟨calls, noted.symm⟩

theorem Explains.refl (s : ρ × τ × List ServerCall) : Explains refused s s :=
  ⟨[], (List.append_nil _).symm, fun _ _ _ _ there => absurd there (by simp)⟩

theorem Explains.trans (h : Explains refused s t) (k : Explains refused t u) : Explains refused s u := by
  obtain ⟨calls, noted, explained⟩ := h
  obtain ⟨more, later, further⟩ := k
  refine ⟨calls ++ more, by rw [later, noted, List.append_assoc], fun before r outcome after there => ?_⟩
  rw [noted] at further
  -- The reply is one of the later calls, or it is one of the earlier ones; `rest` is what lies between.
  obtain ⟨rest, rfl, same⟩ | ⟨rest, rfl, same⟩ := List.append_eq_append_iff.1 there
  · rw [← List.append_assoc]
    exact further rest r outcome after same
  · cases rest with
    | nil => simpa using further [] r outcome after same.symm
    | cons call rest =>
      cases same
      exact explained before r outcome rest rfl

/-- A step that notes one call has to explain that call only. -/
theorem explains_call {call : ServerCall} (noted : t.2.2 = s.2.2 ++ [call])
    (h : ∀ r outcome, call = .sent r outcome → r.Explained refused s.2.2) : Explains refused s t := by
  refine ⟨[call], noted, fun before r outcome after there => ?_⟩
  obtain ⟨rfl, same⟩ | ⟨-, empty⟩ := List.singleton_eq_append_iff.1 there
  · rw [List.append_nil]
    exact h r outcome (by cases same; rfl)
  · cases empty

theorem explains_replySend (h : r.Explained refused s.2.2) :
    Explains refused s ((port.noting.beside ρ).replySend r s).2 := by
  refine explains_call rfl fun r' outcome sent => ?_
  cases sent
  exact h

theorem sent_mem_replySend (port : ServerPort τ) (r : Message) (s : ρ × τ × List ServerCall) :
    .sent r ((port.noting.beside ρ).replySend r s).1 ∈ ((port.noting.beside ρ).replySend r s).2.2.2 :=
  List.mem_append_right _ (List.mem_singleton_self _)

theorem explains_afterMatch (store : RecordStore ρ) (port : ServerPort τ) {query : String} {room : Nat}
    (later : ∀ s, Explains refused s (stream (store.beside _) (port.noting.beside ρ) m query room false s))
    {sending : Except ChannelFault Unit × ρ × τ × List ServerCall} (noted : .sent r sending.1 ∈ sending.2.2.2) :
    Explains refused sending.2 (afterMatch (store.beside _) (port.noting.beside ρ) m query room sending) := by
  obtain ⟨_ | _, s⟩ := sending
  · exact explains_replySend (.loss r _ rfl noted rfl)
  · exact later s

theorem explains_stream (store : RecordStore ρ) (port : ServerPort τ) (m : Message) (query : String) (room : Nat)
    (first : Bool) (s : ρ × τ × List ServerCall) :
    Explains refused s (stream (store.beside _) (port.noting.beside ρ) m query room first s) := by
  induction room generalizing first s with
  | zero => exact .refl s
  | succ room ih =>
    have scanned := findNext_beside store query first s
    generalize (store.findNext query first s.1).2 = r at scanned
    cases given : (store.findNext query first s.1).1 with
    | none =>
      rw [given] at scanned
      rw [stream_ended scanned]
      exact explains_replySend (s := (r, s.2)) (.silent nofun rfl)
    | some e =>
      rw [given] at scanned
      rw [stream_of_some scanned]
      have matched : Explains refused (r, s.2) ((port.noting.beside ρ).replySend (m.found e) (r, s.2)).2 :=
        explains_replySend (.silent nofun rfl)
      exact matched.trans (explains_afterMatch store port (ih false) (sent_mem_replySend port (m.found e) (r, s.2)))

theorem grows_afterMatch (store : RecordStore ρ) (port : ServerPort τ) (m : Message) (query : String) (room : Nat)
    (e : CatalogEntry) (s : ρ × τ × List ServerCall) :
    ((port.noting.beside ρ).replySend (m.found e) s).2.2.2 <+:
      (afterMatch (store.beside _) (port.noting.beside ρ) m query room
        ((port.noting.beside ρ).replySend (m.found e) s)).2.2 := by
  have explains : Explains (fun _ => False) _ _ :=
    explains_afterMatch store port (explains_stream store port m query room false) (sent_mem_replySend port (m.found e) s)
  exact explains.grows

/-- Why a store refuses the change that a request asks for. -/
def Refuses (store : RecordStore ρ) (m : Message) (r : ρ) (f : StoreFault) : Prop :=
  ∃ c, changeOf m.request = some c ∧ (store.change c r).1 = .error f

theorem explained_conclusion {c : Change} {r : ρ} (changes : changeOf m.request = some c) (calls : List ServerCall) :
    (m.conclusion (store.change c r).1).Explained (Refuses store m r) calls := by
  cases made : (store.change c r).1 with
  | ok => exact .silent nofun rfl
  | error f => exact .refusal f rfl ⟨c, changes, made⟩ rfl

theorem explains_answer (m : Message) (s : ρ × τ × List ServerCall) :
    Explains (Refuses store m s.1) s (answer (store.beside _) (port.noting.beside ρ) m s) := by
  unfold answer
  cases asks : m.request with
  | findCatalog query => exact explains_stream store port m query _ true s
  | getCatalog | getTrack => exact explains_replySend (.silent nofun rfl)
  | createDatabase | addCatalog | addTrack | deleteCatalog | deleteTrack =>
    have changes := congrArg changeOf asks
    exact explains_replySend (s := ((store.change _ s.1).2, s.2)) (explained_conclusion changes _)

theorem explains_afterBegin (m : Message) (begun : Except ChannelFault Unit × ρ × τ × List ServerCall) :
    Explains (Refuses store m begun.2.1) begun.2 (afterBegin (store.beside _) (port.noting.beside ρ) m begun) := by
  obtain ⟨_ | _, s⟩ := begun
  · exact .refl s
  · refine (explains_answer m s).trans (explains_call rfl fun r outcome ended => ?_)
    cases ended

theorem explains_dispatch (store : RecordStore ρ) (port : ServerPort τ) (m : Message) (s : ρ × τ × List ServerCall) :
    Explains (Refuses store m s.1) s (dispatch (store.beside _) (port.noting.beside ρ) m s) := by
  rw [dispatch_eq]
  refine Explains.trans (explains_call rfl fun r outcome sent => ?_) (explains_afterBegin m _)
  cases sent

structure Level (s : ρ × τ × List ServerCall) (s' : ρ × τ' × List ServerCall) : Prop where
  store : s.1 = s'.1
  calls : List.Forall₂ ServerCall.Alike s.2.2 s'.2.2

section Twins

variable (level : Level s s') {calls calls' : List ServerCall} (fates : ServerCall.SameFates calls calls')

include level fates

/-- A call that both servers make comes to the same for both, as one of the calls of which that is known. -/
theorem Level.noted {call call' : Except ChannelFault Unit → ServerCall}
    (alike : ∀ outcome, (call outcome).Alike (call' outcome)) {outcome outcome' : Except ChannelFault Unit}
    (told : (call outcome).fate = outcome) (told' : (call' outcome').fate = outcome')
    (goes : s.2.2 ++ [call outcome] <+: calls) (goes' : s'.2.2 ++ [call' outcome'] <+: calls') (w : τ) (w' : τ') :
    outcome = outcome' ∧ Level (s.1, w, s.2.2 ++ [call outcome]) (s'.1, w', s'.2.2 ++ [call' outcome']) := by
  have agree : outcome = outcome' := by
    rw [← told, ← told']
    exact fates.next level.calls.length_eq goes goes'
  cases agree
  exact ⟨rfl, level.store, List.rel_append level.calls (.cons (alike outcome) .nil)⟩

theorem Level.replySend (alike : r.Alike r') (goes : ((port.noting.beside ρ).replySend r s).2.2.2 <+: calls)
    (goes' : ((port'.noting.beside ρ).replySend r' s').2.2.2 <+: calls') :
    ((port.noting.beside ρ).replySend r s).1 = ((port'.noting.beside ρ).replySend r' s').1 ∧
      Level ((port.noting.beside ρ).replySend r s).2 ((port'.noting.beside ρ).replySend r' s').2 :=
  level.noted fates (fun outcome => .sent outcome alike) rfl rfl goes goes' _ _

theorem Level.replyBegin {origin : UInt32} (goes : ((port.noting.beside ρ).replyBegin origin s).2.2.2 <+: calls)
    (goes' : ((port'.noting.beside ρ).replyBegin origin s').2.2.2 <+: calls') :
    ((port.noting.beside ρ).replyBegin origin s).1 = ((port'.noting.beside ρ).replyBegin origin s').1 ∧
      Level ((port.noting.beside ρ).replyBegin origin s).2 ((port'.noting.beside ρ).replyBegin origin s').2 :=
  level.noted fates (fun outcome => .begun origin outcome) rfl rfl goes goes' _ _

theorem Level.replied (alike : r.Alike r') (ends : ((port.noting.beside ρ).replySend r s).2.2.2 = calls)
    (ends' : ((port'.noting.beside ρ).replySend r' s').2.2.2 = calls') :
    Level ((port.noting.beside ρ).replySend r s).2 ((port'.noting.beside ρ).replySend r' s').2 :=
  (level.replySend fates alike (ends ▸ List.prefix_rfl) (ends' ▸ List.prefix_rfl)).2

end Twins

def Parallel (run : ρ × τ × List ServerCall → ρ × τ × List ServerCall)
    (run' : ρ × τ' × List ServerCall → ρ × τ' × List ServerCall) : Prop :=
  ∀ {s s'}, Level s s' → ServerCall.SameFates (run s).2.2 (run' s').2.2 → Level (run s) (run' s')

theorem Level.afterMatch {query : String} {room : Nat} {sending : Except ChannelFault Unit × ρ × τ × List ServerCall}
    {sending' : Except ChannelFault Unit × ρ × τ' × List ServerCall} (level : Level sending.2 sending'.2)
    (agree : sending.1 = sending'.1) (same : m.Twin m') (search : m.operation = .findCatalog)
    (later : Parallel (stream (store.beside _) (port.noting.beside ρ) m query room false)
      (stream (store.beside _) (port'.noting.beside ρ) m' query room false))
    (fates : ServerCall.SameFates
      (Server.afterMatch (store.beside _) (port.noting.beside ρ) m query room sending).2.2
      (Server.afterMatch (store.beside _) (port'.noting.beside ρ) m' query room sending').2.2) :
    Level (Server.afterMatch (store.beside _) (port.noting.beside ρ) m query room sending)
      (Server.afterMatch (store.beside _) (port'.noting.beside ρ) m' query room sending') := by
  obtain ⟨outcome, s⟩ := sending
  obtain ⟨outcome', s'⟩ := sending'
  cases agree
  cases outcome with
  | ok => exact later level fates
  | error cause => exact level.replied fates (same.cutShort search cause) rfl rfl

theorem parallel_stream (same : m.Twin m') (search : m.operation = .findCatalog) (query : String) (room : Nat)
    (first : Bool) :
    Parallel (stream (store.beside _) (port.noting.beside ρ) m query room first)
      (stream (store.beside _) (port'.noting.beside ρ) m' query room first) := by
  induction room generalizing first with
  | zero => exact fun level _ => level
  | succ room ih =>
    intro s s' level fates
    have scanned := findNext_beside store query first s
    have scanned' := findNext_beside store query first s'
    rw [← level.store] at scanned'
    generalize (store.findNext query first s.1).2 = r at scanned scanned'
    have moved : Level (r, s.2) (r, s'.2) := ⟨rfl, level.calls⟩
    cases given : (store.findNext query first s.1).1 with
    | none =>
      rw [given] at scanned scanned'
      rw [stream_ended scanned, stream_ended scanned'] at fates ⊢
      exact moved.replied fates (same.noMore search) rfl rfl
    | some e =>
      rw [given] at scanned scanned'
      rw [stream_of_some scanned, stream_of_some scanned'] at fates ⊢
      -- The fates are those of the whole runs, which have the match among their calls whatever follows it.
      obtain ⟨agree, sent⟩ := moved.replySend fates (same.found search e) (grows_afterMatch store port m query room e _)
        (grows_afterMatch store port' m' query room e _)
      exact sent.afterMatch agree same search (ih false) fates

theorem parallel_conclude (same : m.Twin m') {c : Change} (changes : changeOf m.request = some c) :
    Parallel (conclude (store.beside _) (port.noting.beside ρ) m c)
      (conclude (store.beside _) (port'.noting.beside ρ) m' c) := by
  intro s s' level fates
  have moved : Level ((store.change c s.1).2, s.2) ((store.change c s'.1).2, s'.2) :=
    ⟨congrArg (fun r => (store.change c r).2) level.store, level.calls⟩
  have alike := same.conclusion changes (store.change c s.1).1
  nth_rewrite 2 [level.store] at alike
  exact moved.replied fates alike rfl rfl

theorem parallel_answer (same : m.Twin m') :
    Parallel (answer (store.beside _) (port.noting.beside ρ) m) (answer (store.beside _) (port'.noting.beside ρ) m') := by
  intro s s' level fates
  have operation := m.operation_request
  unfold answer at fates ⊢
  rw [← same.request] at fates ⊢
  cases asks : m.request with
  | findCatalog query =>
    rw [asks] at fates operation
    have size : (store.beside _).size s' = (store.beside (τ × List ServerCall)).size s := congrArg store.size level.store.symm
    dsimp only at fates ⊢
    rw [size] at fates ⊢
    exact parallel_stream same operation.symm query _ true level fates
  | getCatalog key =>
    rw [asks] at fates operation
    have given : (store.catalog? key s.1).getD {} = (store.catalog? key s'.1).getD {} := by rw [level.store]
    refine level.replied fates ⟨same.origin, same.operation, rfl, rfl, fun _ => given, fun looks => ?_⟩ rfl rfl
    cases operation.trans looks
  | getTrack key number =>
    rw [asks] at fates operation
    have given : (store.track? key number s.1).getD {} = (store.track? key number s'.1).getD {} := by rw [level.store]
    refine level.replied fates ⟨same.origin, same.operation, rfl, rfl, fun looks => ?_, fun _ => given⟩ rfl rfl
    obtain looks | looks := looks <;> cases operation.trans looks
  | createDatabase | addCatalog | addTrack | deleteCatalog | deleteTrack =>
    rw [asks] at fates
    exact parallel_conclude same (congrArg changeOf asks) level fates

theorem grows_afterBegin (store : RecordStore ρ) (port : ServerPort τ) (m : Message)
    (begun : Except ChannelFault Unit × ρ × τ × List ServerCall) :
    begun.2.2.2 <+: (afterBegin (store.beside _) (port.noting.beside ρ) m begun).2.2 :=
  (explains_afterBegin m begun).grows

theorem Level.afterBegin {begun : Except ChannelFault Unit × ρ × τ × List ServerCall}
    {begun' : Except ChannelFault Unit × ρ × τ' × List ServerCall} (level : Level begun.2 begun'.2)
    (agree : begun.1 = begun'.1) (same : m.Twin m')
    (fates : ServerCall.SameFates (Server.afterBegin (store.beside _) (port.noting.beside ρ) m begun).2.2
      (Server.afterBegin (store.beside _) (port'.noting.beside ρ) m' begun').2.2) :
    Level (Server.afterBegin (store.beside _) (port.noting.beside ρ) m begun)
      (Server.afterBegin (store.beside _) (port'.noting.beside ρ) m' begun') := by
  obtain ⟨outcome, s⟩ := begun
  obtain ⟨outcome', s'⟩ := begun'
  cases agree
  cases outcome with
  | error => exact level
  | ok =>
    have answered := parallel_answer same level (fates.of_prefix ⟨[.ended], rfl⟩ ⟨[.ended], rfl⟩)
    exact ⟨answered.store, List.rel_append answered.calls (.cons .ended .nil)⟩

theorem parallel_dispatch (same : m.Twin m') :
    Parallel (dispatch (store.beside _) (port.noting.beside ρ) m) (dispatch (store.beside _) (port'.noting.beside ρ) m') := by
  intro s s' level fates
  rw [dispatch_eq, dispatch_eq, ← same.origin] at fates ⊢
  obtain ⟨agree, begun⟩ := level.replyBegin fates (grows_afterBegin store port m _) (grows_afterBegin store port' m' _)
  exact begun.afterBegin agree same fates

end Runs

section Dispatch

variable {ρ τ τ' : Type} (store : RecordStore ρ) (port : ServerPort τ) (m : Message) (r : ρ) (w : τ)

/-- The store that a dispatch leaves. -/
def leaves : ρ := (dispatch (store.beside _) (port.beside ρ) m (r, w)).1

/-- The calls of a dispatch on its channel, each with its outcome. -/
def callsOf : List ServerCall := (dispatch (store.beside _) (port.noting.beside ρ) m (r, w, [])).2.2

theorem leaves_eq : leaves store port m r w = (dispatch (store.beside _) (port.noting.beside ρ) m (r, w, [])).1 :=
  congrArg Prod.fst ((carries_noting store port).dispatch m (r, w, []))

/-- A request is read off the slots that it was put in. Two messages of one client that ask for the same leave
the same store and lead to the same calls on their channels, with replies that agree but for the slots that
they repeat, as long as the calls come to the same. And over every store and channel, no reply has its
diagnostic from the request: it has none, or it gives the fault of the store or of a call before it. -/
theorem unused_slots_unread :
    (∀ origin request, (Message.ofRequest origin request).request = request) ∧
    (∀ {ρ τ τ' : Type} (store : RecordStore ρ) (port : ServerPort τ) (port' : ServerPort τ') (m m' : Message) (r : ρ)
      (w : τ) (w' : τ'),
      m.origin = m'.origin → m.request = m'.request →
      ServerCall.SameFates (callsOf store port m r w) (callsOf store port' m' r w') →
      leaves store port m r w = leaves store port' m' r w' ∧
        List.Forall₂ ServerCall.Alike (callsOf store port m r w) (callsOf store port' m' r w')) ∧
    ∀ {ρ τ : Type} (store : RecordStore ρ) (port : ServerPort τ) (m : Message) (r : ρ) (w : τ),
      ∀ before reply outcome after, callsOf store port m r w = before ++ .sent reply outcome :: after →
        reply.Explained (Refuses store m r) before := by
  refine ⟨Message.request_ofRequest, fun store port port' m m' r w w' origin request fates => ?_,
    fun store port m r w => ?_⟩
  · have start : Level (r, w, []) (r, w', []) := ⟨rfl, .nil⟩
    have ends := parallel_dispatch ⟨origin, request⟩ start fates
    rw [leaves_eq, leaves_eq]
    exact ⟨ends.store, ends.calls⟩
  · obtain ⟨calls, noted, explained⟩ := explains_dispatch store port m (r, w, [])
    intro before reply outcome after there
    exact explained before reply outcome after (noted.symm.trans there)

end Dispatch

end Server

def ServerPort.destined : ServerPort (List (Except ChannelFault Unit)) where
  receive outcomes := (.error .closed, outcomes)
  replyBegin _ outcomes := (outcomes.headD (.ok ()), outcomes.tail)
  replySend _ outcomes := (outcomes.headD (.ok ()), outcomes.tail)
  replyEnd := id
  close := id
  backlog _ := 0

namespace Server

/-- A search of which the only match is lost, asked for by two messages that have little else in common. -/
theorem unused_slots_unread_cutShort :
    let m := Message.ofRequest 7 (.findCatalog "CD")
    let m' : Message := { m with
      status := .failed, catalog := { m.catalog with title := "Kind of Blue" }, track := .ofKey "CD2" 3,
      diagnostic := "command failed" }
    let tables : Store := { catalogs := ⟨[.ofKey "CD1"], List.pairwise_singleton _ _⟩ }
    let outcomes : List (Except ChannelFault Unit) := [.ok (), .error .peerClosed]
    let calls := callsOf RecordStore.memory ServerPort.destined m tables outcomes
    let calls' := callsOf RecordStore.memory ServerPort.destined m' tables outcomes
    calls = [.begun 7 (.ok ()), .sent (m.found (.ofKey "CD1")) (.error .peerClosed), .sent (m.cutShort .peerClosed) (.ok ()),
      .ended] ∧
    m.origin = m'.origin ∧ m.request = m'.request ∧ ServerCall.SameFates calls calls' ∧
      leaves RecordStore.memory ServerPort.destined m tables outcomes =
        leaves RecordStore.memory ServerPort.destined m' tables outcomes ∧
      List.Forall₂ ServerCall.Alike calls calls' := by
  intro m m' tables outcomes calls calls'
  have made : calls = [.begun 7 (.ok ()), .sent (m.found (.ofKey "CD1")) (.error .peerClosed),
    .sent (m.cutShort .peerClosed) (.ok ()), .ended] := by
    dsimp only [calls, m, tables, outcomes]
    rfl
  have made' : calls' = [.begun 7 (.ok ()), .sent (m'.found (.ofKey "CD1")) (.error .peerClosed),
    .sent (m'.cutShort .peerClosed) (.ok ()), .ended] := by
    dsimp only [calls', m', m, tables, outcomes]
    rfl
  have fates : ServerCall.SameFates calls calls' := by
    rw [made, made']
    exact .of_map_eq rfl
  obtain ⟨store, alike⟩ := unused_slots_unread.2.1 RecordStore.memory ServerPort.destined ServerPort.destined m m' tables
    outcomes outcomes rfl rfl fates
  exact ⟨made, rfl, rfl, fates, store, alike⟩

end Server

end DiscCatalog
