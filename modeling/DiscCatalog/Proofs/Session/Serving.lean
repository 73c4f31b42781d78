import DiscCatalog.Proofs.Channel.Answering
import DiscCatalog.Proofs.Client.Replies
import DiscCatalog.Proofs.Server.Turns

namespace DiscCatalog

def Message.Addressed (origin : UInt32) (replies : List Message) : Prop :=
  ∀ r ∈ replies, r.Encodes ∧ r.origin = origin

namespace Hall

variable {S C : Type} (m : Medium Machine S C) {asked : Message} {tables after : Store} {s s' : S} {c c' : C}
  {cs : List C} {machine machine' : Machine} {unread rest : List Message} {u : Server.Unsent}

def siteOf (w : Store × S × Machine) : Site S where
  machine := w.2.2
  repository := .memory w.1
  server := w.2.1

def serving (tables : Store) (handled : Nat) (s : S) (machine : Machine) : Hall S where
  service := { world := siteOf (tables, s, machine), handled }

def owing (asked : Message) (u : Server.Unsent) (tables : Store) (handled : Nat) (s : S) (machine : Machine) : Hall S where
  service := { world := siteOf (tables, s, machine), handled }
  paused := some ⟨.request asked, some u⟩

theorem carries_siteOf :
    Server.Carries siteOf (Server.memoryBeside (S × Machine)) (Server.besideMemory m.waiting) Site.store (port m) where
  catalog? _ _ := rfl
  track? _ _ _ := rfl
  change c w := by
    change Site.storePart.lift (Repository.change c) (siteOf w) = _
    simp only [Part.lift, Site.storePart, siteOf, Repository.change, Server.memoryBeside, RecordStore.within,
      RecordStore.memory]
    cases w.1.apply c <;> rfl
  findNext _ _ _ := rfl
  size _ := rfl
  receive _ := rfl
  replyBegin _ _ := rfl
  replySend _ _ := rfl
  replyEnd _ := rfl

variable {m}

theorem handle_waits (waits : m.waiting.receive (s, machine) = (.error .interrupted, s', machine'))
    (handled room : Nat) :
    handle m (room + 1) (serving tables handled s machine) = serving tables handled s' machine' := by
  have taken : (Server.besideMemory m.waiting).receive (tables, s, machine) =
      (.error .interrupted, tables, s', machine') := by
    simp only [Server.besideMemory, ServerPort.within, Part.lift, waits]
  have turned := (carries_siteOf m).turn none (tables, s, machine) handled
  simp only [Server.turn, taken] at turned
  rw [handle]
  simp only [serving, Option.isSome_none, Bool.false_eq_true, ↓reduceIte] at turned ⊢
  simp only [Server.turn, turned]

theorem settle_waits (waits : m.waiting.receive (s, machine) = (.error .interrupted, s', machine')) (handled : Nat) :
    settle m (serving tables handled s machine) = serving tables handled s' machine' :=
  handle_waits waits handled _

/-- What is still to be sent goes through as a whole, or the server stops with the rest of it when something lies unread
before the client. -/
theorem send_addressed (a : m.Answering) {u : Option Server.Unsent} (owes : Server.Owes rest u tables after)
    (replies : a.Replies true unread c cs s machine) (addressed : Message.Addressed (a.origin c) rest) :
    (∃ s' machine', Server.send (Server.memoryBeside _) (Server.besideMemory m.waiting) u (tables, s, machine) =
        (none, after, s', machine') ∧ a.Replies false (unread ++ rest) c cs s' machine') ∨
      ∃ sent late v tables' s' machine', rest = sent ++ late ∧ unread ++ sent ≠ [] ∧
        Server.send (Server.memoryBeside _) (Server.besideMemory m.waiting) u (tables, s, machine) =
          (some v, tables', s', machine') ∧
        a.Replies true (unread ++ sent) c cs s' machine' ∧ Server.Owes late (some v) tables' after := by
  induction rest generalizing unread u tables s machine with
  | nil =>
    obtain ⟨rfl, rfl⟩ := owes
    refine .inl ⟨_, _, Server.send_none _ _ _, ?_⟩
    rw [List.append_nil]
    exact a.ends replies
  | cons r rest ih =>
    obtain ⟨v, rfl, rfl, later⟩ := owes
    obtain ⟨⟨encodes, own⟩, others⟩ := List.forall_mem_cons.1 addressed
    obtain ⟨s', machine', sent, replies'⟩ | ⟨some, waits⟩ := a.sends replies encodes own
    · have through : (Server.besideMemory m.waiting).replySend v.reply (tables, s, machine) =
          (.ok (), tables, s', machine') := by
        rw [Server.replySend_besideMemory, sent]
      have goes := Server.send_onward (Server.memoryBeside (S × Machine)) through (by simp)
      rw [Server.onward_beside] at goes
      rw [goes]
      obtain ⟨s'', machine'', all, replies''⟩ |
        ⟨more, late, w, tables', s'', machine'', rfl, some, stops, replies'', owes'⟩ := ih later replies' others
      · exact .inl ⟨s'', machine'', all, by rwa [List.append_assoc] at replies''⟩
      · rw [List.append_assoc] at replies'' some
        exact .inr ⟨v.reply :: more, late, w, tables', s'', machine'', rfl, some, stops, replies'', owes'⟩
    · have stuck : (Server.besideMemory m.waiting).replySend v.reply (tables, s, machine) =
          (.error .interrupted, tables, s, machine) := by
        rw [Server.replySend_besideMemory, waits]
      refine .inr ⟨[], _, v, tables, s, machine, rfl, ?_, Server.send_waits _ stuck, ?_, v, rfl, rfl, later⟩
      · rwa [List.append_nil]
      · rwa [List.append_nil]

/-- A hall that answers a request of one client: some of the replies lie before the client, some are still to be sent. -/
inductive Answers (a : m.Answering) (asked : Message) (after : Store) (handled : Nat) (c : C) (cs : List C) :
    (unread rest : List Message) → Hall S → Prop
  | sent {unread : List Message} {s : S} {machine : Machine} :
      a.Replies false unread c cs s machine →
      Answers a asked after handled c cs unread [] (serving after (handled + 1) s machine)
  | owed {unread rest : List Message} {u : Server.Unsent} {tables : Store} {s : S} {machine : Machine} :
      a.Replies true unread c cs s machine → Server.Owes rest (some u) tables after →
      Message.Addressed (a.origin c) rest →
      Answers a asked after handled c cs unread rest (owing asked u tables handled s machine)

variable {a : m.Answering} {handled : Nat} {hall : Hall S}

/-- A turn in which a server answers: it has answered in full and waits for the next request, or stops when something
lies before the client. -/
theorem handle_answers {paused : Option Server.Pause} {u : Option Server.Unsent} {s₀ : S} {machine₀ : Machine}
    {tables₀ : Store}
    (turned : Server.turn (Server.memoryBeside _) (Server.besideMemory m.waiting) paused
        ⟨(tables₀, s₀, machine₀), handled⟩ =
      Server.account (.request asked) handled
        (Server.respond (Server.memoryBeside _) (Server.besideMemory m.waiting) (.request asked) u (tables, s, machine)))
    (owes : Server.Owes rest u tables after) (replies : a.Replies true unread c cs s machine)
    (addressed : Message.Addressed (a.origin c) rest) (room : Nat) :
    ∃ unread' late, unread ++ rest = unread' ++ late ∧ (late ≠ [] → unread' ≠ []) ∧
      Answers a asked after handled c cs unread' late
        (handle m (room + 2) { service := ⟨siteOf (tables₀, s₀, machine₀), handled⟩, paused }) := by
  have lifted := (carries_siteOf m).turn paused (tables₀, s₀, machine₀) handled
  rw [turned] at lifted
  rw [handle]
  obtain ⟨s', machine', all, replies'⟩ |
    ⟨sent, late, v, tables', s', machine', rfl, some, stops, replies', owes'⟩ :=
    send_addressed a owes replies addressed
  · rw [Server.respond, all] at lifted
    obtain ⟨s'', machine'', waits, replies''⟩ := a.waits replies'
    refine ⟨unread ++ rest, [], by rw [List.append_nil], fun more => absurd rfl more, ?_⟩
    simp only [Option.isSome_none, Bool.false_eq_true, ↓reduceIte, lifted, Server.account, Option.map_none]
    have goes : handle m (room + 1) (serving after (handled + 1) s' machine') =
        serving after (handled + 1) s'' machine'' := handle_waits waits (handled + 1) room
    exact goes ▸ .sent replies''
  · rw [Server.respond, stops] at lifted
    refine ⟨unread ++ sent, late, by rw [List.append_assoc], fun _ => some, ?_⟩
    simp only [Option.isSome_none, Bool.false_eq_true, ↓reduceIte, lifted, Server.account, Option.map_some]
    exact .owed replies' owes' fun r there => addressed r (List.mem_append_right _ there)

theorem settle_answers (answers : Answers a asked after handled c cs unread rest hall) :
    ∃ unread' late, unread ++ rest = unread' ++ late ∧ (late ≠ [] → unread' ≠ []) ∧
      Answers a asked after handled c cs unread' late (settle m hall) := by
  cases answers with
  | sent replies =>
    obtain ⟨s', machine', waits, replies'⟩ := a.waits replies
    refine ⟨unread, [], rfl, fun more => absurd rfl more, ?_⟩
    rw [settle_waits waits]
    exact .sent replies'
  | owed replies owes addressed => exact handle_answers rfl owes replies addressed _

theorem Answers.read {r : Message} (answers : Answers a asked after handled c cs (r :: unread) rest hall) :
    ∃ hall', (Medium.beside machinePart C).lift m.client.replyReceive (c, hall) = (.ok r, c, hall') ∧
      Answers a asked after handled c cs unread rest hall' := by
  cases answers with
  | sent replies =>
    obtain ⟨machine', read, replies'⟩ := a.reads replies
    exact ⟨_, congrArg (fun t : Except ChannelFault Message × C × Machine =>
      (t.1, t.2.1, serving after (handled + 1) _ t.2.2)) read, .sent replies'⟩
  | @owed _ u tables s machine replies owes addressed =>
    obtain ⟨machine', read, replies'⟩ := a.reads replies
    exact ⟨_, congrArg (fun t : Except ChannelFault Message × C × Machine =>
      (t.1, t.2.1, owing asked u tables handled s t.2.2)) read, .owed replies' owes addressed⟩

/-- A client that reads on is given all the replies in order, and then nothing is on its way. -/
theorem Answers.yields (answers : Answers a asked after handled c cs unread rest hall) :
    ∃ s' machine', Client.Yields (clientPort m) (unread ++ rest) (c, hall) (c, serving after (handled + 1) s' machine') ∧
      a.Rests (c :: cs) s' machine' := by
  generalize all : unread ++ rest = messages
  induction messages generalizing unread rest hall with
  | nil =>
    obtain ⟨rfl, rfl⟩ := List.append_eq_nil_iff.1 all
    cases answers with
    | @sent s machine replies => exact ⟨s, machine, .nil _, a.rests replies⟩
    | owed _ owes _ => cases owes.1
  | cons r messages ih =>
    obtain ⟨unread', late, same, lies, settled⟩ := settle_answers answers
    cases unread' with
    | nil =>
      cases late with
      | nil => cases all.symm.trans same
      | cons => exact absurd rfl (lies (List.cons_ne_nil _ _))
    | cons r' unread' =>
      obtain ⟨rfl, others⟩ := List.cons.inj (all.symm.trans same)
      obtain ⟨hall', read, answers'⟩ := settled.read
      obtain ⟨s', machine', yields, rests⟩ := ih answers' others.symm
      exact ⟨s', machine', .cons read yields, rests⟩

theorem Answers.length_le (answers : Answers a asked after handled c cs unread rest hall) :
    (unread ++ rest).length ≤ (clientPort m).backlog (c, hall) := by
  rw [List.length_append]
  cases answers with
  | sent replies => exact (a.backlog replies).trans (Nat.le_add_right _ _)
  | @owed _ u tables s machine replies owes addressed =>
    have few : rest.length ≤ u.most := by
      cases rest with
      | nil => exact Nat.zero_le _
      | cons r rest => exact owes.length_le
    exact Nat.add_le_add (a.backlog replies) (few.trans (Nat.le_add_right _ _))

end Hall

end DiscCatalog
