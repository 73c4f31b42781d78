import DiscCatalog.Proofs.Channel.Bench
import DiscCatalog.Proofs.Channel.NamedPipe

namespace DiscCatalog

open Host

/-- What goes over a channel: the messages that clients sent through, each with the origin of its sender, and what
the server came to whenever it received. -/
structure Traffic where
  sent : List Message := []
  outcomes : List (Except ChannelFault Message) := []

namespace Traffic

def received (t : Traffic) : List Message := t.outcomes.filterMap (·.toOption)

def append (t u : Traffic) : Traffic := ⟨t.sent ++ u.sent, t.outcomes ++ u.outcomes⟩

theorem received_append (t u : Traffic) : (t.append u).received = t.received ++ u.received := List.filterMap_append

variable {W S C : Type}

def ofCall (m : Medium W S C) (b : Bench W S C) : EndCall → EndAnswer → Traffic
  | .send name request, .done (.ok ()) =>
    { sent := (b.clients.lookup name).toList.map fun c => { request with origin := m.client.origin (c, b.world) } }
  | .receive _, .message outcome => { outcomes := [outcome] }
  | .receiveFrom _ _ origin request, .received outcome (.ok _) =>
    { sent := [{ request with origin }], outcomes := [outcome] }
  | .receiveFrom _ _ _ _, .received outcome (.error _) => { outcomes := [outcome] }
  | _, _ => {}

def arrived (origin : UInt32) (request : Message) (opened : Except ChannelFault UInt32) : List Message :=
  match opened with
  | .ok _ => [{ request with origin }]
  | .error _ => []

theorem ofCall_receiveFrom (m : Medium W S C) (b : Bench W S C) (server client : String) (origin : UInt32)
    (request : Message) (outcome : Except ChannelFault Message) (opened : Except ChannelFault UInt32) :
    ofCall m b (.receiveFrom server client origin request) (.received outcome opened) =
      { sent := arrived origin request opened, outcomes := [outcome] } := by
  cases opened <;> rfl

end Traffic

namespace PipeServer

/-- What a server may come to when it receives: a message, an interruption, or that it could not open its pipe. -/
inductive Comes (path : String) : Except ChannelFault Message → Prop
  | message (m : Message) : Comes path (.ok m)
  | interrupted : Comes path (.error .interrupted)
  | unopened (e : Errno) : Comes path (.error (.pipe "open" path e))

variable {path : String} {waiting left : List Message} {outcome : Poll}

theorem Takes.comes (takes : Takes path waiting outcome left) : Comes path (outcome.getD (.error .interrupted)) := by
  cases takes with
  | message m => exact .message m
  | fault e =>
    unfold ChannelFault.ofPipe
    dsimp only [Option.getD_some]
    split
    · exact .interrupted
    · exact .unopened e
  | waits => exact .interrupted

theorem Takes.account (takes : Takes path waiting outcome left) :
    Traffic.received { outcomes := [outcome.getD (.error .interrupted)] } ++ left = waiting := by
  cases takes <;> rfl

end PipeServer

namespace Bench

variable {W S C : Type}

/-- A turn in a run. -/
inductive Turn where
  | call (call : EndCall)
  /-- A server that receives goes on as far as it can. Where nothing has come it waits on, and others may take
  their turns before it goes on again. -/
  | receiving (name : String)

def turn (m : Medium W S C) : Turn → Bench W S C → Traffic × Bench W S C
  | .call call, b => (Traffic.ofCall m b call (b.perform m call).1, (b.perform m call).2)
  | .receiving name, b =>
    match b.servers.lookup name with
    | none => ({}, b)
    | some s =>
      let (outcome, s, world) := m.poll (s, b.world)
      ({ outcomes := outcome.toList }, { b with world, servers := assign name s b.servers })

def run (m : Medium W S C) : List Turn → Bench W S C → Traffic × Bench W S C
  | [], b => ({}, b)
  | t :: turns, b => ((turn m t b).1.append (run m turns (turn m t b).2).1, (run m turns (turn m t b).2).2)

variable {settings : PipeSettings} {name : String} {home : Location} {pipe : Nat} {s s' : PipeServer}
  {waiting left : List Message} {b b' : Bench Host PipeServer PipeClient} {w : Host}

structure Joined (settings : PipeSettings) (name : String) (home : Location) (pipe : Nat) (s : PipeServer)
    (waiting : List Message) (b : Bench Host PipeServer PipeClient) : Prop where
  servers : b.servers = [(name, s)]
  serves : s.Serves settings
  again : s.reopening = true → s.inbound.isSome
  leads : Leads settings home b.world
  line : OwnPipe (inboundPlace home) pipe s.inbound waiting b.world
  outbound : Aside pipe s.outbound b.world
  clients : ∀ e ∈ b.clients, e.2.Attached settings home pipe b.world

namespace Joined

theorem attached (joined : Joined settings name home pipe s waiting b) {n : String} {c : PipeClient}
    (found : b.clients.lookup n = some c) : c.Attached settings home pipe b.world := by
  obtain ⟨before, after, entries, -⟩ := List.lookup_eq_some_iff.1 found
  exact joined.clients (n, c) (by rw [entries]; simp)

theorem moved (joined : Joined settings name home pipe s waiting b) (later : Later b.world w)
    (line : OwnPipe (inboundPlace home) pipe s.inbound left w) :
    Joined settings name home pipe s left { b with world := w } where
  servers := joined.servers
  serves := joined.serves
  again := joined.again
  leads := joined.leads.later later
  line := line
  outbound := joined.outbound.later later
  clients e there := (joined.clients e there).later later

theorem served (joined : Joined settings name home pipe s waiting b) (later : Later b.world w)
    (serves : s'.Serves settings) (again : s'.reopening = true → s'.inbound.isSome)
    (line : OwnPipe (inboundPlace home) pipe s'.inbound left w) (outbound : Aside pipe s'.outbound w) :
    Joined settings name home pipe s' left { b with world := w, servers := assign name s' b.servers } where
  servers := by simp [assign, joined.servers]
  serves := serves
  again := again
  leads := joined.leads.later later
  line := line
  outbound := outbound
  clients e there := (joined.clients e there).later later

/-- The server has received, or has gone as far with that as it can without waiting. -/
theorem receiving (joined : Joined settings name home pipe s waiting b) (later : Later b.world w)
    (same : s' = { s with inbound := s'.inbound, reopening := s'.reopening })
    (again : s'.reopening = true → s'.inbound.isSome)
    (line : OwnPipe (inboundPlace home) pipe s'.inbound left w) :
    Joined settings name home pipe s' left { b with world := w, servers := assign name s' b.servers } :=
  joined.served later (same ▸ ⟨joined.serves.set, joined.serves.path, joined.serves.isOpen⟩) again line
    (same ▸ joined.outbound.later later)

theorem replying (joined : Joined settings name home pipe s waiting b) {outbound : Option Nat}
    (spares : Spares pipe b.world w) (aside : Aside pipe outbound w) :
    Joined settings name home pipe { s with outbound } waiting
      { b with world := w, servers := assign name { s with outbound } b.servers } :=
  joined.served spares.toLater ⟨joined.serves.set, joined.serves.path, joined.serves.isOpen⟩ joined.again
    (joined.line.spares spares) aside

theorem assign_client (joined : Joined settings name home pipe s waiting b) {c : PipeClient}
    (attached : c.Attached settings home pipe b.world) (n : String) :
    Joined settings name home pipe s waiting { b with clients := assign n c b.clients } :=
  { joined with
    clients := by
      rintro e there
      obtain rfl | there := List.mem_cons.1 there
      · exact attached
      · exact joined.clients e (List.mem_of_mem_filter there) }

theorem unassign_client (joined : Joined settings name home pipe s waiting b) (n : String) :
    Joined settings name home pipe s waiting { b with clients := unassign n b.clients } :=
  { joined with clients := fun e there => joined.clients e (List.mem_of_mem_filter there) }

theorem openClient (joined : Joined settings name home pipe s waiting b) (n : String) (origin : UInt32) :
    Joined settings name home pipe s waiting (Bench.openClient (.pipes settings) n origin b).2 ∧
      Later b.world (Bench.openClient (.pipes settings) n origin b).2.world ∧
      ∀ o, (Bench.openClient (.pipes settings) n origin b).1 = .ok o → ∃ c : PipeClient, c.origin = origin ∧
        (Bench.openClient (.pipes settings) n origin b).2.clients.lookup n = some c := by
  have opening := PipeClient.openOn_keeps joined.line joined.leads origin
  unfold Bench.openClient
  dsimp only [Medium.pipes]
  revert opening
  obtain ⟨f | c, w⟩ := PipeClient.openOn settings origin b.world
  · rintro ⟨line, later, -⟩
    exact ⟨joined.moved later line, later, fun o opened => by cases opened⟩
  · rintro ⟨line, later, comes⟩
    obtain ⟨same, attached⟩ := comes c rfl
    have there := joined.moved later line
    have lookup : (assign n c b.clients).lookup n = some c := by simp [assign]
    dsimp only at attached ⊢
    cases found : b.clients.lookup n with
    | none => exact ⟨there.assign_client attached n, later, fun _ _ => ⟨c, same, lookup⟩⟩
    | some old =>
      obtain ⟨line', leaving⟩ := PipeClient.close_keeps there.line there.leads (there.attached found)
      exact ⟨(there.moved leaving line').assign_client (attached.later leaving) n, later.trans leaving,
        fun _ _ => ⟨c, same, lookup⟩⟩

theorem arrive (joined : Joined settings name home pipe s waiting b) (n : String) (origin : UInt32)
    (request : Message) :
    Joined settings name home pipe s
        (waiting ++ Traffic.arrived origin request (b.arrive (.pipes settings) n origin request).1)
        (b.arrive (.pipes settings) n origin request).2 ∧
      Later b.world (b.arrive (.pipes settings) n origin request).2.world := by
  have opening := joined.openClient n origin
  unfold Bench.arrive
  revert opening
  obtain ⟨f | o, b₁⟩ := b.openClient (.pipes settings) n origin
  · rintro ⟨joined, later, -⟩
    dsimp only [Traffic.arrived]
    rw [List.append_nil]
    exact ⟨joined, later⟩
  · rintro ⟨joined, later, comes⟩
    obtain ⟨c, rfl, found⟩ := comes o rfl
    have attached := joined.attached found
    dsimp only at found joined later ⊢
    rw [found]
    dsimp only [Medium.pipes, PipeClient.port]
    obtain ⟨f, failed⟩ | ⟨w, sent, sending, line⟩ := PipeClient.send_cases joined.line attached request
    · rw [failed]
      dsimp only [Traffic.arrived, Except.map]
      rw [List.append_nil]
      exact ⟨joined.assign_client attached n, later⟩
    · rw [sent]
      exact ⟨(joined.moved sending line).assign_client (attached.later sending) n, later.trans sending⟩

end Joined

structure Conveys (settings : PipeSettings) (name : String) (home : Location) (pipe : Nat) (waiting : List Message)
    (b : Bench Host PipeServer PipeClient) (t : Traffic) (left : List Message)
    (b' : Bench Host PipeServer PipeClient) : Prop where
  joined : ∃ s, Joined settings name home pipe s left b'
  later : Later b.world b'.world
  account : t.received ++ left = waiting ++ t.sent
  outcomes : ∀ outcome ∈ t.outcomes, PipeServer.Comes settings.serverPath outcome

namespace Conveys

theorem refl (joined : Joined settings name home pipe s waiting b) :
    Conveys settings name home pipe waiting b {} waiting b :=
  ⟨⟨s, joined⟩, .refl joined.line.sound, (List.append_nil _).symm, by simp⟩

theorem trans {b'' : Bench Host PipeServer PipeClient} {mid : List Message} {t u : Traffic}
    (first : Conveys settings name home pipe waiting b t mid b')
    (second : Conveys settings name home pipe mid b' u left b'') :
    Conveys settings name home pipe waiting b (t.append u) left b'' where
  joined := second.joined
  later := first.later.trans second.later
  account := by
    rw [Traffic.received_append, List.append_assoc, second.account, ← List.append_assoc, first.account,
      List.append_assoc]
    rfl
  outcomes := List.forall_mem_append.2 ⟨first.outcomes, second.outcomes⟩

theorem received (joined : Joined settings name home pipe s' left b') (later : Later b.world b'.world)
    (serves : s.Serves settings) {outcome : PipeServer.Poll} (takes : PipeServer.Takes s.path waiting outcome left)
    {came : Except ChannelFault Message} (same : came = outcome.getD (.error .interrupted)) :
    Conveys settings name home pipe waiting b { outcomes := [came] } left b' := by
  subst same
  refine ⟨⟨s', joined⟩, later, takes.account.trans (List.append_nil _).symm, ?_⟩
  rw [serves.path] at takes
  simpa using takes.comes

theorem sent {new : List Message} (joined : Joined settings name home pipe s (waiting ++ new) b')
    (later : Later b.world b'.world) :
    Conveys settings name home pipe waiting b { sent := new } (waiting ++ new) b' :=
  ⟨⟨s, joined⟩, later, rfl, by simp⟩

theorem quiet (joined : Joined settings name home pipe s waiting b') (later : Later b.world b'.world) :
    Conveys settings name home pipe waiting b {} waiting b' :=
  ⟨⟨s, joined⟩, later, (List.append_nil _).symm, by simp⟩

theorem polled (joined : Joined settings name home pipe s' left b') (later : Later b.world b'.world)
    (serves : s.Serves settings) {outcome : PipeServer.Poll} (takes : PipeServer.Takes s.path waiting outcome left) :
    Conveys settings name home pipe waiting b { outcomes := outcome.toList } left b' := by
  cases outcome with
  | some came => exact .received joined later serves takes rfl
  | none =>
    cases takes
    exact .quiet joined later

end Conveys

section Calls

variable (joined : Joined settings name home pipe s waiting b) (n : String)

include joined

theorem onServer_eq (f : PipeServer × Host → EndAnswer × PipeServer × Host) :
    b.onServer n f = if n = name then some ((f (s, b.world)).1,
      { b with world := (f (s, b.world)).2.2, servers := assign name (f (s, b.world)).2.1 b.servers }) else none := by
  rw [onServer, lookup_single joined.servers]
  split
  · next same =>
    subst same
    rfl
  · rfl

theorem conveys_receive :
    ∃ left, Conveys settings name home pipe waiting b
      (Traffic.ofCall (.pipes settings) b (.receive n) (b.perform (.pipes settings) (.receive n)).1) left
      (b.perform (.pipes settings) (.receive n)).2 := by
  unfold perform perform?
  dsimp only
  rw [onServer_eq joined]
  by_cases same : n = name
  · subst same
    obtain ⟨left, ⟨outcome, takes, came⟩, line, later, same, stopped⟩ :=
      PipeServer.receive_received joined.serves joined.leads joined.line joined.again
    rw [if_pos rfl]
    exact ⟨left, .received (joined.receiving later same (fun again => by cases stopped.symm.trans again) line) later
      joined.serves takes came⟩
  · rw [if_neg same]
    exact ⟨waiting, .refl joined⟩

theorem conveys_receiving :
    ∃ left, Conveys settings name home pipe waiting b (turn (.pipes settings) (.receiving n) b).1 left
      (turn (.pipes settings) (.receiving n) b).2 := by
  unfold turn
  dsimp only
  rw [lookup_single joined.servers]
  by_cases same : n = name
  · subst same
    obtain ⟨left, takes, line, later, same, again⟩ :=
      PipeServer.poll_polled joined.serves joined.leads joined.line joined.again
    rw [if_pos rfl]
    exact ⟨left, .polled (joined.receiving later same (fun waits => (again waits).2.1) line) later joined.serves takes⟩
  · rw [if_neg same]
    exact ⟨waiting, .refl joined⟩

theorem conveys_send (request : Message) :
    ∃ left, Conveys settings name home pipe waiting b
      (Traffic.ofCall (.pipes settings) b (.send n request) (b.perform (.pipes settings) (.send n request)).1) left
      (b.perform (.pipes settings) (.send n request)).2 := by
  unfold perform perform? onClient
  dsimp only
  cases found : b.clients.lookup n with
  | none => exact ⟨waiting, .refl joined⟩
  | some c =>
    have attached := joined.attached found
    change ∃ left, Conveys settings name home pipe waiting b (Traffic.ofCall (.pipes settings) b (.send n request)
      (.done (PipeClient.send request (c, b.world)).1)) left
      { b with
        world := (PipeClient.send request (c, b.world)).2.2
        clients := assign n (PipeClient.send request (c, b.world)).2.1 b.clients }
    obtain ⟨f, failed⟩ | ⟨w, sent, later, line⟩ := PipeClient.send_cases joined.line attached request
    · rw [failed]
      exact ⟨waiting, .quiet (joined.assign_client attached n) (.refl joined.line.sound)⟩
    · rw [sent]
      have account : Traffic.ofCall (.pipes settings) b (.send n request) (.done (.ok ())) =
          { sent := [{ request with origin := c.origin }] } := by
        simp only [Traffic.ofCall, found]
        rfl
      rw [account]
      exact ⟨_, .sent ((joined.moved later line).assign_client (attached.later later) n) later⟩

theorem conveys_silent {call : EndCall} (silent : ∀ answer, Traffic.ofCall (.pipes settings) b call answer = {})
    (keeps : ∀ r, perform? (.pipes settings) call b = some r →
      ∃ s', Joined settings name home pipe s' waiting r.2 ∧ Later b.world r.2.world) :
    ∃ left, Conveys settings name home pipe waiting b
      (Traffic.ofCall (.pipes settings) b call (b.perform (.pipes settings) call).1) left
      (b.perform (.pipes settings) call).2 := by
  rw [silent]
  refine ⟨waiting, ?_⟩
  unfold perform
  cases performed : perform? (.pipes settings) call b with
  | none => exact .refl joined
  | some r =>
    obtain ⟨s', joined', later⟩ := keeps r performed
    exact .quiet joined' later

theorem onClient_keeps {f : PipeClient × Host → EndAnswer × PipeClient × Host}
    (keeps : ∀ c, c.Attached settings home pipe b.world →
      (f (c, b.world)).2.1.Attached settings home pipe (f (c, b.world)).2.2 ∧
        OwnPipe (inboundPlace home) pipe s.inbound waiting (f (c, b.world)).2.2 ∧ Later b.world (f (c, b.world)).2.2)
    {r : EndAnswer × Bench Host PipeServer PipeClient} (called : b.onClient n f = some r) :
    ∃ s', Joined settings name home pipe s' waiting r.2 ∧ Later b.world r.2.world := by
  obtain ⟨c, found, rfl⟩ := Option.map_eq_some_iff.1 called
  obtain ⟨attached, line, later⟩ := keeps c (joined.attached found)
  exact ⟨s, (joined.moved later line).assign_client attached n, later⟩

theorem onServer_keeps {f : PipeServer × Host → EndAnswer × PipeServer × Host}
    (keeps : n = name → Spares pipe b.world (f (s, b.world)).2.2 ∧ ∃ outbound,
      (f (s, b.world)).2.1 = { s with outbound } ∧ Aside pipe outbound (f (s, b.world)).2.2)
    {r : EndAnswer × Bench Host PipeServer PipeClient} (called : b.onServer n f = some r) :
    ∃ s', Joined settings name home pipe s' waiting r.2 ∧ Later b.world r.2.world := by
  rw [onServer_eq joined] at called
  split at called
  · next same =>
    cases called
    obtain ⟨spares, outbound, ends, aside⟩ := keeps same
    rw [ends]
    exact ⟨_, joined.replying spares aside, spares.toLater⟩
  · cases called

theorem close_keeps {r : EndAnswer × Bench Host PipeServer PipeClient} (other : n ≠ name)
    (called : perform? (.pipes settings) (.close n) b = some r) :
    ∃ s', Joined settings name home pipe s' waiting r.2 ∧ Later b.world r.2.world := by
  simp only [perform?] at called
  rw [onServer_eq joined, if_neg other, Option.none_or] at called
  refine onClient_keeps joined n (fun c attached => ?_) called
  have closing := PipeClient.close_keeps joined.line joined.leads attached
  exact ⟨PipeClient.close_attached attached closing.2, closing⟩

theorem drop_keeps {r : EndAnswer × Bench Host PipeServer PipeClient} (other : n ≠ name)
    (called : perform? (.pipes settings) (.drop n) b = some r) :
    ∃ s', Joined settings name home pipe s' waiting r.2 ∧ Later b.world r.2.world := by
  simp only [perform?, drop] at called
  rw [lookup_single joined.servers, if_neg other] at called
  cases found : b.clients.lookup n with
  | none => rw [found] at called; cases called
  | some c =>
    rw [found] at called
    cases called
    obtain ⟨line, leaving⟩ := PipeClient.close_keeps joined.line joined.leads (joined.attached found)
    exact ⟨s, (joined.moved leaving line).unassign_client n, leaving⟩

theorem openClient_keeps {origin : UInt32} {r : EndAnswer × Bench Host PipeServer PipeClient}
    (called : perform? (.pipes settings) (.openClient n origin) b = some r) :
    ∃ s', Joined settings name home pipe s' waiting r.2 ∧ Later b.world r.2.world := by
  cases called
  obtain ⟨joined', later, -⟩ := joined.openClient n origin
  exact ⟨s, joined', later⟩

theorem replyBegin_keeps {origin : UInt32} {r : EndAnswer × Bench Host PipeServer PipeClient}
    (unlinked : n = name → Unlinked settings origin b.world)
    (called : perform? (.pipes settings) (.replyBegin n origin) b = some r) :
    ∃ s', Joined settings name home pipe s' waiting r.2 ∧ Later b.world r.2.world := by
  obtain begun | ⟨-, begun⟩ := Option.or_eq_some_iff.1 called
  · exact onServer_keeps joined n (fun same => PipeServer.replyBegin_spares joined.line joined.outbound joined.leads
      joined.serves.set (unlinked same)) begun
  · refine onClient_keeps joined n (fun c attached => ?_) begun
    obtain ⟨spares, attached'⟩ := PipeClient.replyBegin_keeps joined.line joined.leads attached
    exact ⟨attached', joined.line.spares spares, spares.toLater⟩

theorem replySend_keeps {reply : Message} {r : EndAnswer × Bench Host PipeServer PipeClient}
    (called : perform? (.pipes settings) (.replySend n reply) b = some r) :
    ∃ s', Joined settings name home pipe s' waiting r.2 ∧ Later b.world r.2.world := by
  simp only [perform?] at called
  refine onServer_keeps joined n (fun _ => ?_) called
  obtain ⟨same, spares⟩ := PipeServer.replySend_spares joined.line joined.outbound reply
  exact ⟨spares, s.outbound, same, joined.outbound.later spares.toLater⟩

theorem replyReceive_keeps {r : EndAnswer × Bench Host PipeServer PipeClient}
    (called : perform? (.pipes settings) (.replyReceive n) b = some r) :
    ∃ s', Joined settings name home pipe s' waiting r.2 ∧ Later b.world r.2.world := by
  simp only [perform?] at called
  refine onClient_keeps joined n (fun c attached => ?_) called
  obtain ⟨same, spares⟩ := PipeClient.replyReceive_keeps joined.line attached
  refine ⟨?_, joined.line.spares spares, spares.toLater⟩
  change (PipeClient.replyReceive (c, b.world)).2.1.Attached settings home pipe _
  rw [same]
  exact attached.later spares.toLater

theorem replyEnd_keeps {r : EndAnswer × Bench Host PipeServer PipeClient}
    (called : perform? (.pipes settings) (.replyEnd n) b = some r) :
    ∃ s', Joined settings name home pipe s' waiting r.2 ∧ Later b.world r.2.world := by
  obtain ended | ⟨-, ended⟩ := Option.or_eq_some_iff.1 called
  · exact onServer_keeps joined n (fun _ => ⟨joined.outbound.closeHeld joined.line.sound, none, rfl, .none⟩) ended
  · exact onClient_keeps joined n (fun c attached => ⟨attached, joined.line, .refl joined.line.sound⟩) ended

theorem conveys_receiveFrom (client : String) (origin : UInt32) (request : Message) :
    ∃ left, Conveys settings name home pipe waiting b (Traffic.ofCall (.pipes settings) b
        (.receiveFrom n client origin request) (b.perform (.pipes settings) (.receiveFrom n client origin request)).1)
      left (b.perform (.pipes settings) (.receiveFrom n client origin request)).2 := by
  simp only [perform, perform?]
  rw [receiveFrom_eq, lookup_single joined.servers]
  by_cases same : n = name
  · subst same
    rw [if_pos rfl]
    have polling : ∃ left, PipeServer.Polled home pipe waiting s b.world
        ((Medium.pipes settings).poll (s, b.world)) left :=
      PipeServer.poll_polled joined.serves joined.leads joined.line joined.again
    rcases polled : (Medium.pipes settings).poll (s, b.world) with ⟨early, s', w⟩
    rw [polled] at polling
    obtain ⟨left, takes, line, later, same, again⟩ := polling
    have receiving := joined.receiving later same (fun waits => (again waits).2.1) line
    have arriving := receiving.arrive client origin request
    rcases arrived : Bench.arrive (.pipes settings) client origin request
      { b with world := w, servers := assign n s' b.servers } with ⟨opened, b'⟩
    dsimp only at arriving
    rw [arrived] at arriving
    obtain ⟨joined', arriving⟩ := arriving
    cases early with
    | some outcome =>
      simp only [Option.map_some, Option.getD_some, polled, arrived, Traffic.ofCall_receiveFrom]
      have still := joined'.served (.refl joined'.line.sound) joined'.serves joined'.again joined'.line joined'.outbound
      exact ⟨_, (Conveys.polled receiving later joined.serves takes).trans (.sent still arriving)⟩
    | none =>
      cases takes
      have going : ∃ left, PipeServer.Received home pipe ([] ++ Traffic.arrived origin request opened) s' b'.world
          ((Medium.pipes settings).server.receive (s', b'.world)) left :=
        PipeServer.receive_received joined'.serves joined'.leads joined'.line joined'.again
      rcases received : (Medium.pipes settings).server.receive (s', b'.world) with ⟨came, s'', w'⟩
      rw [received] at going
      obtain ⟨left, ⟨outcome, takes, came⟩, line, going, same, stopped⟩ := going
      simp only [Option.map_some, Option.getD_some, polled, arrived, received, Traffic.ofCall_receiveFrom]
      have last := joined'.receiving going same (fun again => by cases stopped.symm.trans again) line
      have both := (Conveys.quiet receiving later).trans
        ((Conveys.sent joined' arriving).trans (.received last going joined'.serves takes came))
      exact ⟨left, by simpa [Traffic.append] using both⟩
  · rw [if_neg same]
    exact ⟨waiting, .refl joined⟩

end Calls

/-- A call in the life of one server, before it is closed. A server answers where no link leads away from its clients'
pipes. -/
def Admits (settings : PipeSettings) (name : String) (h : Host) : EndCall → Prop
  | .openServer _ => False
  | .close n | .drop n => n ≠ name
  | .replyBegin n origin => n = name → Unlinked settings origin h
  | _ => True

theorem Admits.later {h h' : Host} {call : EndCall} (admits : Admits settings name h call) (later : Later h h') :
    Admits settings name h' call := by
  cases call with
  | replyBegin n origin => exact fun same => (admits same).later later
  | _ => exact admits

/-- Every call keeps the messages in order, each one once: it takes the first, puts one behind the others, or does
both or neither. -/
theorem conveys_perform (joined : Joined settings name home pipe s waiting b) {call : EndCall}
    (admits : Admits settings name b.world call) :
    ∃ left, Conveys settings name home pipe waiting b
      (Traffic.ofCall (.pipes settings) b call (b.perform (.pipes settings) call).1) left
      (b.perform (.pipes settings) call).2 := by
  cases call with
  | openServer n => exact admits.elim
  | receive n => exact conveys_receive joined n
  | send n request => exact conveys_send joined n request
  | receiveFrom n client origin request => exact conveys_receiveFrom joined n client origin request
  | openClient n origin => exact conveys_silent joined (fun _ => rfl) fun _ => openClient_keeps joined n
  | replyBegin n origin => exact conveys_silent joined (fun _ => rfl) fun _ => replyBegin_keeps joined n admits
  | replySend n reply => exact conveys_silent joined (fun _ => rfl) fun _ => replySend_keeps joined n
  | replyReceive n => exact conveys_silent joined (fun _ => rfl) fun _ => replyReceive_keeps joined n
  | replyEnd n => exact conveys_silent joined (fun _ => rfl) fun _ => replyEnd_keeps joined n
  | close n => exact conveys_silent joined (fun _ => rfl) fun _ => close_keeps joined n admits
  | drop n => exact conveys_silent joined (fun _ => rfl) fun _ => drop_keeps joined n admits

theorem conveys_turn (joined : Joined settings name home pipe s waiting b) {t : Turn}
    (admits : ∀ call, t = .call call → Admits settings name b.world call) :
    ∃ left, Conveys settings name home pipe waiting b (turn (.pipes settings) t b).1 left
      (turn (.pipes settings) t b).2 := by
  cases t with
  | call call => exact conveys_perform joined (admits call rfl)
  | receiving n => exact conveys_receiving joined n

theorem conveys_run (joined : Joined settings name home pipe s waiting b) {turns : List Turn}
    (admits : ∀ call, .call call ∈ turns → Admits settings name b.world call) :
    ∃ left, Conveys settings name home pipe waiting b (run (.pipes settings) turns b).1 left
      (run (.pipes settings) turns b).2 := by
  induction turns generalizing s waiting b with
  | nil => exact ⟨waiting, .refl joined⟩
  | cons t turns ih =>
    obtain ⟨mid, first⟩ := conveys_turn joined fun call same => admits call (same ▸ List.mem_cons_self)
    obtain ⟨s', joined'⟩ := first.joined
    obtain ⟨left, rest⟩ := ih joined' fun call there => (admits call (List.mem_cons_of_mem t there)).later first.later
    exact ⟨left, first.trans rest⟩

/-- What waits first is what the server is given next. -/
theorem receive_next {m : Message} (joined : Joined settings name home pipe s (m :: waiting) b) :
    (b.perform (.pipes settings) (.receive name)).1 = .message (.ok m) := by
  obtain ⟨left, ⟨outcome, takes, came⟩, -⟩ :=
    PipeServer.receive_received joined.serves joined.leads joined.line joined.again
  cases takes
  simp only [perform, perform?]
  rw [onServer_eq joined, if_pos rfl]
  exact congrArg EndAnswer.message came

/-- In every run of one server and any number of clients, in which clients come, send and leave at any time, also
while the server opens its pipe anew, the messages that the server was given and then those whose frames are in its
pipe are the messages that were sent through, in their order, each one once and with the origin of its sender. A
server that receives is given the first message that waits; it never comes to an end or to part of a message because
clients left. -/
theorem given_then_waiting {h world : Host} {server : PipeServer} (sound : h.Sound)
    (opened : PipeServer.openOn settings h = (.ok server, world)) {turns : List Turn}
    (admits : ∀ call, .call call ∈ turns → Admits settings name world call) :
    let ran := run (.pipes settings) turns { world, servers := [(name, server)] }
    ∃ reader buffer waiting, server.inbound.bind world.handle? = some reader ∧
      ran.2.world.contentOf? reader.node = some (.pipe buffer) ∧
      (∀ m ∈ waiting, m.Encodes) ∧ buffer.content = waiting.flatMap Message.frame ∧
      ran.1.received ++ waiting = ran.1.sent ∧
      (∀ outcome ∈ ran.1.outcomes, PipeServer.Comes settings.serverPath outcome) ∧
      ∀ m rest, waiting = m :: rest → (ran.2.perform (.pipes settings) (.receive name)).1 = .message (.ok m) := by
  obtain ⟨home, pipe, links, entered, line, serves, reads, stopped, noReply⟩ := PipeServer.openOn_serves sound opened
  have joined : Joined settings name home pipe server [] { world, servers := [(name, server)] } :=
    { servers := rfl
      serves := serves
      again := fun _ => reads
      leads := fun p l there => by cases entered.symm.trans there; rfl
      line := line
      outbound := noReply ▸ .none
      clients := by simp }
  obtain ⟨waiting, ⟨s, joined'⟩, -, account, outcomes⟩ := conveys_run joined admits
  obtain ⟨buffer, content, frames⟩ := joined'.line.buffer
  obtain ⟨i, held⟩ := Option.isSome_iff_exists.1 reads
  obtain ⟨reader, taken, rfl, -⟩ := line.reader i held
  refine ⟨reader, buffer, waiting, ?_, content, joined'.line.encode, frames, account, outcomes, ?_⟩
  · rw [held]
    exact taken
  · rintro m rest rfl
    exact receive_next joined'

section Visits

def vacant : Host where
  names := [([], 0)]
  nodes := [⟨.directory, 0o755⟩]

def visits : List Turn :=
  [.call (.openClient "a" 5), .call (.send "a" (.ofRequest 0 .createDatabase)), .call (.drop "a"),
    .call (.receive "s"), .receiving "s", .call (.openClient "b" 6), .call (.openClient "c" 7),
    .call (.send "b" (.ofRequest 0 (.getCatalog "CD1"))), .call (.drop "b"), .receiving "s", .call (.close "c"),
    .call (.receiveFrom "s" "d" 8 (.ofRequest 0 (.getCatalog "CD2")))]

theorem given_then_waiting_visits :
    vacant.Sound ∧ ∃ server world, PipeServer.openOn { directory := "" } vacant = (.ok server, world) ∧
      (∀ call, .call call ∈ visits → Admits { directory := "" } "s" world call) ∧
      let ran := run (.pipes { directory := "" }) visits { world, servers := [("s", server)] }
      ∃ reader buffer waiting, server.inbound.bind world.handle? = some reader ∧
        ran.2.world.contentOf? reader.node = some (.pipe buffer) ∧
        (∀ m ∈ waiting, m.Encodes) ∧ buffer.content = waiting.flatMap Message.frame ∧
        ran.1.received ++ waiting = ran.1.sent ∧
        (∀ outcome ∈ ran.1.outcomes, PipeServer.Comes "server_pipe" outcome) ∧
        ∀ m rest, waiting = m :: rest →
          (ran.2.perform (.pipes { directory := "" }) (.receive "s")).1 = .message (.ok m) := by
  have sound : vacant.Sound := Sound.of_names (by decide) (by decide) (by decide)
  have entered : vacant.enter "" = .ok ([], maxLinks) := by
    rw [enter, pathNames_empty, descend]
    rfl
  obtain ⟨server, world, opened⟩ : ∃ server world, PipeServer.openOn { directory := "" } vacant = (.ok server, world) :=
    ⟨_, _, Prod.ext (PipeServer.openOn_free sound entered ⟨by decide, by decide, by decide⟩ (by decide) (by decide)
      (by decide)) rfl⟩
  have admits : ∀ call, .call call ∈ visits → Admits { directory := "" } "s" world call := by
    intro call there
    simp only [visits, List.mem_cons, Turn.call.injEq, reduceCtorEq, false_or, List.not_mem_nil, or_false] at there
    rcases there with rfl | rfl | rfl | rfl | rfl | rfl | rfl | rfl | rfl | rfl <;> simp [Admits]
  exact ⟨sound, server, world, opened, admits, given_then_waiting sound opened admits⟩

end Visits

end Bench

end DiscCatalog
