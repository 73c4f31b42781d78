import DiscCatalog.Proofs.Server.Calls
import DiscCatalog.Proofs.Server.Encoding

namespace DiscCatalog

/-- Where a scan stands makes no difference to what a request is answered. -/
theorem Server.repliesTo_scan (m : Message) (s : Store) (scan : Scan) :
    repliesTo m { s with scan } = repliesTo m s := by
  unfold repliesTo
  cases m.request with
  | findCatalog | getCatalog | getTrack => rfl
  | createDatabase | addCatalog | addTrack | deleteCatalog | deleteTrack =>
    dsimp only [changeOf, Option.toList, List.map]
    obtain ⟨scan', same⟩ := Store.memory_change_scan _ s scan
    rw [same]

theorem Server.storeAfter_scan (m : Message) (s : Store) (scan : Scan) :
    ∃ scan', storeAfter m { s with scan } = { storeAfter m s with scan := scan' } := by
  unfold storeAfter
  cases changeOf m.request with
  | none => exact ⟨scan, rfl⟩
  | some c =>
    obtain ⟨scan', same⟩ := Store.memory_change_scan c s scan
    exact ⟨scan', congrArg Prod.snd same⟩

namespace ServerCall

/-- Of a line of replies to `m`, what is sent: all of them, or those up to the first that does not go
through and then the report of that. The last one is sent without a report. -/
inductive Delivery (m : Message) : List Message → List ServerCall → Prop
  | last (r : Message) (outcome : Except ChannelFault Unit) : Delivery m [r] [.sent r outcome]
  | through {r : Message} {rest : List Message} {sends : List ServerCall} :
      Delivery m rest sends → Delivery m (r :: rest) (.sent r (.ok ()) :: sends)
  | broken {r : Message} {rest : List Message} {cause : ChannelFault} {outcome : Except ChannelFault Unit} :
      rest ≠ [] → Delivery m (r :: rest) [.sent r (.error cause), .sent (m.cutShort cause) outcome]

def changes : List ServerCall → List StoreCall
  | [] => []
  | .received (.ok m) :: .begun _ (.ok ()) :: rest =>
    (Server.changeOf m.request).toList.map .change ++ changes rest
  | _ :: rest => changes rest

/-- How the calls of a server come about that begins with tables `s` and ends with tables `t`. -/
inductive Accounts : (s : Store) → List ServerCall → (t : Store) → Prop
  | done (s : Store) : Accounts s [] s
  | closed {s t : Store} {rest : List ServerCall} : Accounts s rest t → Accounts s (.closed :: rest) t
  | unanswered {s t : Store} {outcome : Except ChannelFault Message} {rest : List ServerCall} :
      addressee outcome = none → Accounts s rest t → Accounts s (.received outcome :: rest) t
  | refused {s t : Store} {outcome : Except ChannelFault Message} {origin : UInt32} {fault : ChannelFault}
      {rest : List ServerCall} :
      addressee outcome = some origin → Accounts s rest t →
      Accounts s (.received outcome :: .begun origin (.error fault) :: rest) t
  | rejected {s t : Store} {origin : UInt32} {cause : FrameFault} (outcome : Except ChannelFault Unit)
      {rest : List ServerCall} :
      Accounts s rest t →
      Accounts s (.received (.error (.malformed (some origin) cause)) :: .begun origin (.ok ())
        :: .sent (.rejection origin (commandFailed cause.message)) outcome :: .ended :: rest) t
  | carriedOut {s t : Store} {m : Message} {sends rest : List ServerCall} :
      Delivery m (Server.repliesTo m s) sends → Accounts (Server.storeAfter m s) rest t →
      Accounts s (.received (.ok m) :: .begun m.origin (.ok ()) :: (sends ++ .ended :: rest)) t

theorem Accounts.append {s t u : Store} {calls more : List ServerCall} (h : Accounts s calls t)
    (k : Accounts t more u) : Accounts s (calls ++ more) u := by
  induction h with
  | done => exact k
  | closed _ ih => exact .closed (ih k)
  | unanswered none _ ih => exact .unanswered none (ih k)
  | refused some _ ih => exact .refused some (ih k)
  | rejected outcome _ ih => exact .rejected outcome (ih k)
  | carriedOut delivery _ ih =>
    have later := carriedOut delivery (ih k)
    simpa only [List.cons_append, List.append_assoc] using later

theorem changes_sends {m : Message} {replies : List Message} {sends : List ServerCall} (h : Delivery m replies sends)
    (rest : List ServerCall) : changes (sends ++ .ended :: rest) = changes rest := by
  induction h with
  | last => rfl
  | through _ ih => exact ih
  | broken => rfl

theorem Accounts.performAll {s t : Store} {calls : List ServerCall} (h : Accounts s calls t) :
    RecordStore.memory.performAll (changes calls) s = t := by
  induction h with
  | done => rfl
  | closed _ ih => exact ih
  | @unanswered s t outcome rest none _ ih =>
    cases outcome with
    | ok m => cases none
    | error => exact ih
  | @refused s t outcome origin fault rest some _ ih =>
    cases outcome with
    | ok m => exact ih
    | error => exact ih
  | rejected _ _ ih => exact ih
  | @carriedOut s t m sends rest delivery _ ih =>
    have asked : changes (.received (.ok m) :: .begun m.origin (.ok ()) :: (sends ++ .ended :: rest)) =
        (Server.changeOf m.request).toList.map .change ++ changes rest := by
      rw [changes, changes_sends delivery]
    rw [asked, ← ih, Server.storeAfter]
    cases Server.changeOf m.request <;> rfl

end ServerCall

namespace Server

variable {τ : Type} (port : ServerPort τ)

/-- What is sent of a line of replies follows from what the channel makes of each of them. -/
theorem deliver_noting (m : Message) {replies : List Message} (some : replies ≠ []) (w : τ × List ServerCall) :
    ∃ sends, ServerCall.Delivery m replies sends ∧ (deliver port.noting m replies w).2 = w.2 ++ sends ∧
      ∀ r outcome, .sent r outcome ∈ sends → ∃ w, (port.replySend r w).1 = outcome := by
  induction replies generalizing w with
  | nil => exact absurd rfl some
  | cons r rest ih =>
    have given (next : Message) (w : τ) (r : Message) (outcome : Except ChannelFault Unit)
        (there : .sent r outcome ∈ [ServerCall.sent next (port.replySend next w).1]) :
        ∃ w, (port.replySend r w).1 = outcome := by
      cases List.mem_singleton.1 there
      exact ⟨w, rfl⟩
    by_cases last : rest = []
    · subst last
      exact ⟨_, .last r _, rfl, given r w.1⟩
    · rw [deliver_cons port.noting m r last]
      have sent : port.noting.replySend r w =
          ((port.replySend r w.1).1, (port.replySend r w.1).2, w.2 ++ [.sent r (port.replySend r w.1).1]) := rfl
      have first := given r w.1
      rw [sent]
      generalize w' : (port.replySend r w.1).2 = left
      cases outcome : (port.replySend r w.1).1 with
      | error cause =>
        rw [outcome] at first
        refine ⟨_, .broken last, List.append_assoc _ _ _, ?_⟩
        intro r' outcome' there
        obtain there | there := List.mem_cons.1 there
        · exact first r' outcome' (List.mem_singleton.2 there)
        · exact given (m.cutShort cause) left r' outcome' there
      | ok =>
        rw [outcome] at first
        obtain ⟨sends, delivery, noted, all⟩ := ih last (left, w.2 ++ [.sent r (.ok ())])
        refine ⟨_, .through delivery, ?_, ?_⟩
        · change (deliver port.noting m rest (left, w.2 ++ [.sent r (.ok ())])).2 = _
          rw [noted, List.append_assoc]
          rfl
        · intro r' outcome' there
          obtain there | there := List.mem_cons.1 there
          · exact first r' outcome' (List.mem_singleton.2 there)
          · exact all r' outcome' there

/-- A store in memory, and a channel on which notes are taken. -/
abbrev Ledger (τ : Type) := Store × τ × List ServerCall

abbrev ledgerPort : ServerPort (Ledger τ) := besideMemory port.noting

def Accounted (s : Store) (calls : List ServerCall) (v : Ledger τ) (notes : List ServerCall) : Prop :=
  ∃ t scan, ServerCall.Accounts s calls t ∧ v.1 = { t with scan } ∧ v.2.2 = notes ++ calls

variable (s : Store) (scan : Scan) (w : τ) (notes : List ServerCall)

variable {s scan notes}

theorem Accounted.closed {calls : List ServerCall} {v : Ledger τ} (h : Accounted s calls v notes) :
    Accounted s (calls ++ [.closed]) ((ledgerPort port).close v) notes := by
  obtain ⟨t, scan, accounts, tables, noted⟩ := h
  refine ⟨t, scan, accounts.append (.closed (.done t)), tables, ?_⟩
  rw [← List.append_assoc, ← noted]
  rfl

end Server

end DiscCatalog
