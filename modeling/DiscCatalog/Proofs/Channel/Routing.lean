import DiscCatalog.Proofs.Channel.MessageQueue
import DiscCatalog.Proofs.Channel.Requests

namespace DiscCatalog

open Mailboxes

/-- What is taken, one after the other and each time the first of its type, out of what waits, and what is left. -/
inductive Drained : List Posting → List Posting → List Posting → Prop
  | none (waiting : List Posting) : Drained [] waiting waiting
  | first {front back taken left : List Posting} {p : Posting} (others : ∀ o ∈ front, o.type ≠ p.type)
      (rest : Drained taken (front ++ back) left) : Drained (p :: taken) (front ++ p :: back) left

namespace Drained

variable {taken later waiting left rest : List Posting}

theorem behind (drained : Drained taken waiting left) (new : List Posting) :
    Drained taken (waiting ++ new) (left ++ new) := by
  induction drained with
  | none waiting => exact .none _
  | first others _ ih =>
    rw [List.append_assoc] at ih ⊢
    exact .first others ih

theorem trans (drained : Drained taken waiting left) (more : Drained later left rest) :
    Drained (taken ++ later) waiting rest := by
  induction drained with
  | none waiting => exact more
  | first others _ ih => exact .first others (ih more)

/-- Of each type, what is taken and then what is left is what waited. -/
theorem filter_type (drained : Drained taken waiting left) (type : Nat) :
    taken.filter (·.type = type) ++ left.filter (·.type = type) = waiting.filter (·.type = type) := by
  induction drained with
  | none waiting => rfl
  | @first front back taken left p others _ ih =>
    rw [List.filter_append] at ih
    rw [List.filter_append, List.filter_cons, List.filter_cons]
    by_cases same : p.type = type
    · have empty : front.filter (·.type = type) = [] := by
        rw [List.filter_eq_nil_iff]
        intro o inside
        simpa [← same] using others o inside
      rw [empty, List.nil_append] at ih
      simpa [same, empty] using ih
    · simpa [same] using ih

end Drained

/-- What goes over two queues: what was put on each of them, what the server came to whenever it received, and what
each client came to, under its origin. -/
structure Mail where
  requests : List Posting := []
  replies : List Posting := []
  served : List (Except ChannelFault Message) := []
  answered : List (UInt32 × Except ChannelFault Message) := []

namespace Mail

/-- What the server took. -/
def taken (mail : Mail) : List (Except ChannelFault Message) := mail.served.filter consumed

/-- What clients took, under the type that they asked for. -/
def handed (mail : Mail) : List (Nat × Except ChannelFault Message) :=
  (mail.answered.filter fun a => consumed a.2).map fun a => (a.1.toNat, a.2)

def append (m n : Mail) : Mail :=
  ⟨m.requests ++ n.requests, m.replies ++ n.replies, m.served ++ n.served, m.answered ++ n.answered⟩

theorem taken_append (m n : Mail) : (m.append n).taken = m.taken ++ n.taken := List.filter_append ..

theorem handed_append (m n : Mail) : (m.append n).handed = m.handed ++ n.handed := by
  simp only [handed, append, List.filter_append, List.map_append]

def under (settings : QueueSettings) (key : Int32) (p : Posting) : Mail where
  requests := if key = settings.serverKey then [p] else []
  replies := if key = settings.clientKey then [p] else []

variable {W S C : Type}

def ofCall (m : Medium W S C) (b : Bench W S C) : EndCall → EndAnswer → Mail
  | .send name request, .done (.ok ()) =>
    { requests := (b.clients.lookup name).toList.map fun c =>
        .message { request with origin := m.client.origin (c, b.world) } }
  | .receive _, .message outcome => { served := [outcome] }
  | .replySend _ reply, .done (.ok ()) => { replies := [.message reply] }
  | .replyReceive name, .message outcome =>
    { answered := (b.clients.lookup name).toList.map fun c => (m.client.origin (c, b.world), outcome) }
  | .receiveFrom _ _ origin request, .received outcome opened =>
    { requests := (Traffic.arrived origin request opened).map .message, served := [outcome] }
  | _, _ => {}

end Mail

structure Delivers (requests replies : List Posting) (mail : Mail) (requests' replies' : List Posting) : Prop where
  served : ∃ taken, requests ++ mail.requests = taken ++ requests' ∧ mail.taken = taken.map Posting.comes
  answered : ∃ taken, Drained taken (replies ++ mail.replies) replies' ∧
    mail.handed = taken.map fun p => (p.type, p.comes)

namespace Delivers

variable {requests requests₁ requests₂ replies replies₁ replies₂ : List Posting} {mail mail' : Mail} {p : Posting}

theorem trans (first : Delivers requests replies mail requests₁ replies₁)
    (second : Delivers requests₁ replies₁ mail' requests₂ replies₂) :
    Delivers requests replies (mail.append mail') requests₂ replies₂ := by
  obtain ⟨⟨served, line, took⟩, answered, drained, gave⟩ := first
  obtain ⟨⟨served', line', took'⟩, answered', drained', gave'⟩ := second
  refine ⟨⟨served ++ served', ?_, ?_⟩, answered ++ answered', ?_, ?_⟩
  · change requests ++ (mail.requests ++ mail'.requests) = _
    rw [← List.append_assoc, line, List.append_assoc, line', List.append_assoc]
  · rw [Mail.taken_append, took, took', List.map_append]
  · change Drained _ (replies ++ (mail.replies ++ mail'.replies)) _
    rw [← List.append_assoc]
    exact (drained.behind mail'.replies).trans drained'
  · rw [Mail.handed_append, gave, gave', List.map_append]

theorem none_served : ∃ taken, requests ++ [] = taken ++ requests ∧ [] = taken.map Posting.comes :=
  ⟨[], List.append_nil _, rfl⟩

theorem none_answered : ∃ taken, Drained taken (replies ++ []) replies ∧ [] = taken.map fun p => (p.type, p.comes) :=
  ⟨[], (List.append_nil replies).symm ▸ .none _, rfl⟩

theorem quiet : Delivers requests replies {} requests replies := ⟨none_served, none_answered⟩

theorem request (new : List Posting) : Delivers requests replies { requests := new } (requests ++ new) replies :=
  ⟨⟨[], rfl, rfl⟩, none_answered⟩

theorem reply (new : List Posting) : Delivers requests replies { replies := new } requests (replies ++ new) :=
  ⟨none_served, [], .none _, rfl⟩

theorem receive : Delivers (p :: requests) replies { served := [p.comes] } requests replies := by
  refine ⟨⟨[p], List.append_nil _, ?_⟩, none_answered⟩
  rw [Mail.taken, List.filter_cons_of_pos p.consumed_comes]
  rfl

theorem receive_failed {f : ChannelFault} (kept : consumed (.error f) = false) :
    Delivers requests replies { served := [.error f] } requests replies := by
  refine ⟨?_, none_answered⟩
  rw [Mail.taken, List.filter_cons_of_neg (by simp [kept])]
  exact none_served

theorem replyReceive {front back : List Posting} {origin : UInt32} (same : p.type = origin.toNat)
    (others : ∀ o ∈ front, o.type ≠ p.type) :
    Delivers requests (front ++ p :: back) { answered := [(origin, p.comes)] } requests (front ++ back) := by
  refine ⟨none_served, [p], ?_, ?_⟩
  · rw [List.append_nil]
    exact .first others (.none _)
  · rw [Mail.handed, List.filter_cons_of_pos (by exact p.consumed_comes)]
    exact congrArg (fun type => [(type, p.comes)]) same.symm

theorem replyReceive_failed {f : ChannelFault} {origin : UInt32} (kept : consumed (.error f) = false) :
    Delivers requests replies { answered := [(origin, .error f)] } requests replies := by
  refine ⟨none_served, ?_⟩
  rw [Mail.handed, List.filter_cons_of_neg (by simp [kept])]
  exact none_answered

end Delivers

namespace Bench

/-- A call on a bench, or that somebody else puts bytes on the queue under a key. -/
inductive Event where
  | call (call : EndCall)
  | put (key : Int32) (type : Int) (payload : List UInt8)

def event (settings : QueueSettings) : Event → Bench Mailboxes QueueServer QueueClient →
    Mail × Bench Mailboxes QueueServer QueueClient
  | .call call, b =>
    (Mail.ofCall (.queues settings) b call (b.perform (.queues settings) call).1, (b.perform (.queues settings) call).2)
  | .put key type payload, b =>
    match b.world.find key with
    | .error _ => ({}, b)
    | .ok id =>
      match b.world.send id type payload with
      | (.error _, world) => ({}, { b with world })
      | (.ok (), world) => (.under settings key (.raw type.toNat payload), { b with world })

def events (settings : QueueSettings) : List Event → Bench Mailboxes QueueServer QueueClient →
    Mail × Bench Mailboxes QueueServer QueueClient
  | [], b => ({}, b)
  | e :: rest, b =>
    ((event settings e b).1.append (events settings rest (event settings e b).2).1,
      (events settings rest (event settings e b).2).2)

/-- A call in the life of one server, before it is closed. -/
def Keeps (name : String) : EndCall → Prop
  | .openServer _ => False
  | .close n | .drop n => n ≠ name
  | _ => True

variable {settings : QueueSettings} {name : String} {s : QueueServer} {requestBox replyBox : Mailbox}
  {requests requests' replies replies' : List Posting} {b b' : Bench Mailboxes QueueServer QueueClient} {w : Mailboxes}

structure Routed (settings : QueueSettings) (name : String) (s : QueueServer) (requestBox replyBox : Mailbox)
    (requests replies : List Posting) (b : Bench Mailboxes QueueServer QueueClient) : Prop where
  servers : b.servers = [(name, s)]
  holds : s.Holds settings requestBox replyBox requests replies b.world
  clients : ∀ e ∈ b.clients, e.2.Attached s

namespace Routed

variable (routed : Routed settings name s requestBox replyBox requests replies b)

include routed

theorem attached {n : String} {c : QueueClient} (found : b.clients.lookup n = some c) : c.Attached s := by
  obtain ⟨before, after, entries, -⟩ := List.lookup_eq_some_iff.1 found
  exact routed.clients (n, c) (by rw [entries]; simp)

theorem moved (holds : s.Holds settings requestBox replyBox requests' replies' w) :
    Routed settings name s requestBox replyBox requests' replies' { b with world := w } :=
  ⟨routed.servers, holds, routed.clients⟩

theorem served (holds : s.Holds settings requestBox replyBox requests' replies' w) :
    Routed settings name s requestBox replyBox requests' replies'
      { b with world := w, servers := [(name, s)] } :=
  ⟨rfl, holds, routed.clients⟩

theorem assign_client {c : QueueClient} (attached : c.Attached s) (n : String) :
    Routed settings name s requestBox replyBox requests replies { b with clients := assign n c b.clients } :=
  { routed with
    clients := by
      rintro e there
      obtain rfl | there := List.mem_cons.1 there
      · exact attached
      · exact routed.clients e (List.mem_of_mem_filter there) }

theorem unassign_client (n : String) :
    Routed settings name s requestBox replyBox requests replies { b with clients := unassign n b.clients } :=
  { routed with clients := fun e there => routed.clients e (List.mem_of_mem_filter there) }

end Routed

def Routes (settings : QueueSettings) (name : String) (s : QueueServer) (requestBox replyBox : Mailbox)
    (requests replies : List Posting) (mail : Mail) (b' : Bench Mailboxes QueueServer QueueClient) : Prop :=
  ∃ requests' replies', Routed settings name s requestBox replyBox requests' replies' b' ∧
    Delivers requests replies mail requests' replies'

namespace Routes

theorem trans {mail mail' : Mail} (first : Routes settings name s requestBox replyBox requests replies mail b)
    (second : ∀ requests replies, Routed settings name s requestBox replyBox requests replies b →
      Routes settings name s requestBox replyBox requests replies mail' b') :
    Routes settings name s requestBox replyBox requests replies (mail.append mail') b' := by
  obtain ⟨_, _, routed, delivers⟩ := first
  obtain ⟨_, _, routed', delivers'⟩ := second _ _ routed
  exact ⟨_, _, routed', delivers.trans delivers'⟩

theorem quiet (routed : Routed settings name s requestBox replyBox requests replies b) :
    Routes settings name s requestBox replyBox requests replies {} b :=
  ⟨_, _, routed, .quiet⟩

end Routes

section Calls

variable (routed : Routed settings name s requestBox replyBox requests replies b) (n : String)

include routed

theorem routes_received :
    Routes settings name s requestBox replyBox requests replies
      { served := [(QueueServer.receive (s, b.world)).1] }
      { b with
        world := (QueueServer.receive (s, b.world)).2.2
        servers := [(name, (QueueServer.receive (s, b.world)).2.1)] } := by
  obtain ⟨f, failed, kept, -⟩ | ⟨p, left, rfl, taken⟩ := QueueServer.receive_cases routed.holds
  · rw [failed]
    exact ⟨_, _, routed.served routed.holds, .receive_failed kept⟩
  · rw [taken]
    have sound := List.forall_mem_cons.1 routed.holds.sound.1
    exact ⟨_, _, routed.served (routed.holds.requested sound.2), .receive⟩

theorem routes_polled :
    Routes settings name s requestBox replyBox requests replies
      { served := (QueueServer.poll (s, b.world)).1.toList }
      { b with
        world := (QueueServer.poll (s, b.world)).2.2
        servers := [(name, (QueueServer.poll (s, b.world)).2.1)] } := by
  rw [QueueServer.poll_eq_receive]
  by_cases waits : (QueueServer.receive (s, b.world)).1 = .error .interrupted
  · obtain ⟨f, failed, -⟩ | ⟨p, left, -, taken⟩ := QueueServer.receive_cases routed.holds
    · rw [if_pos waits, failed]
      exact .quiet (routed.served routed.holds)
    · rw [taken] at waits
      have consumes := p.consumed_comes
      rw [show p.comes = _ from waits] at consumes
      cases consumes
  · rw [if_neg waits]
    exact routes_received routed

theorem routes_receive :
    Routes settings name s requestBox replyBox requests replies
      (Mail.ofCall (.queues settings) b (.receive n) (b.perform (.queues settings) (.receive n)).1)
      (b.perform (.queues settings) (.receive n)).2 := by
  simp only [perform, perform?]
  rw [onServer_single routed.servers]
  split
  · exact routes_received routed
  · exact .quiet routed

theorem routes_send (request : Message) :
    Routes settings name s requestBox replyBox requests replies
      (Mail.ofCall (.queues settings) b (.send n request) (b.perform (.queues settings) (.send n request)).1)
      (b.perform (.queues settings) (.send n request)).2 := by
  simp only [perform, perform?, onClient]
  cases found : b.clients.lookup n with
  | none => exact .quiet routed
  | some c =>
    have attached := routed.attached found
    change Routes settings name s requestBox replyBox requests replies
      (Mail.ofCall (.queues settings) b (.send n request) (.done (QueueClient.send request (c, b.world)).1))
      { b with
        world := (QueueClient.send request (c, b.world)).2.2
        clients := assign n (QueueClient.send request (c, b.world)).2.1 b.clients }
    obtain ⟨f, failed⟩ | ⟨encodes, sent⟩ := QueueClient.send_cases routed.holds attached request
    · rw [failed]
      exact .quiet (routed.assign_client attached n)
    · have mail : Mail.ofCall (.queues settings) b (.send n request) (.done (.ok ())) =
          { requests := [.message { request with origin := c.origin }] } := by
        simp only [Mail.ofCall, found]
        rfl
      rw [sent, mail]
      have holds := routed.holds.requested (Posting.sound_behind (p := .message _) routed.holds.sound.1 encodes)
      exact ⟨_, _, (routed.moved holds).assign_client attached n, .request _⟩

theorem routes_replyReceive :
    Routes settings name s requestBox replyBox requests replies
      (Mail.ofCall (.queues settings) b (.replyReceive n) (b.perform (.queues settings) (.replyReceive n)).1)
      (b.perform (.queues settings) (.replyReceive n)).2 := by
  simp only [perform, perform?, onClient]
  cases found : b.clients.lookup n with
  | none => exact .quiet routed
  | some c =>
    have attached := routed.attached found
    change Routes settings name s requestBox replyBox requests replies
      (Mail.ofCall (.queues settings) b (.replyReceive n) (.message (QueueClient.replyReceive (c, b.world)).1))
      { b with
        world := (QueueClient.replyReceive (c, b.world)).2.2
        clients := assign n (QueueClient.replyReceive (c, b.world)).2.1 b.clients }
    have mail : ∀ outcome, Mail.ofCall (.queues settings) b (.replyReceive n) (.message outcome) =
        { answered := [(c.origin, outcome)] } := by
      intro outcome
      simp only [Mail.ofCall, found]
      rfl
    rw [mail]
    obtain ⟨f, failed, kept, -⟩ | ⟨front, p, back, rfl, same, others, taken⟩ :=
      QueueClient.replyReceive_cases routed.holds attached
    · rw [failed]
      exact ⟨_, _, routed.assign_client attached n, .replyReceive_failed kept⟩
    · rw [taken]
      have sound : ∀ o ∈ front ++ back, o.Sound := fun o inside =>
        routed.holds.sound.2 o ((List.Sublist.append_left (List.sublist_cons_self p back) front).subset inside)
      exact ⟨_, _, (routed.moved (routed.holds.replied sound)).assign_client attached n, .replyReceive same others⟩

theorem routes_replySend (reply : Message) :
    Routes settings name s requestBox replyBox requests replies
      (Mail.ofCall (.queues settings) b (.replySend n reply) (b.perform (.queues settings) (.replySend n reply)).1)
      (b.perform (.queues settings) (.replySend n reply)).2 := by
  simp only [perform, perform?]
  rw [onServer_single routed.servers]
  split
  · change Routes settings name s requestBox replyBox requests replies
      (Mail.ofCall (.queues settings) b (.replySend n reply) (.done (QueueServer.replySend reply (s, b.world)).1))
      { b with
        world := (QueueServer.replySend reply (s, b.world)).2.2
        servers := [(name, (QueueServer.replySend reply (s, b.world)).2.1)] }
    obtain ⟨f, failed⟩ | ⟨encodes, sent⟩ := QueueServer.replySend_cases routed.holds reply
    · rw [failed]
      exact .quiet (routed.served routed.holds)
    · rw [sent]
      have holds := routed.holds.replied (Posting.sound_behind (p := .message _) routed.holds.sound.2 encodes)
      exact ⟨_, _, routed.served holds, .reply [.message reply]⟩
  · exact .quiet routed

theorem openClient_routed (origin : UInt32) :
    Routed settings name s requestBox replyBox requests replies (b.openClient (.queues settings) n origin).2 ∧
      ∀ o, (b.openClient (.queues settings) n origin).1 = .ok o → ∃ c : QueueClient, c.origin = origin ∧
        (b.openClient (.queues settings) n origin).2.clients.lookup n = some c := by
  unfold openClient
  dsimp only [Medium.queues]
  obtain ⟨f, failed⟩ | ⟨c, attached, same, -, opened⟩ := QueueClient.openOn_attached routed.holds.runs origin
  · rw [failed]
    exact ⟨routed, fun o none => by cases none⟩
  · rw [opened]
    have lookup : (assign n c b.clients).lookup n = some c := by simp [assign]
    have there := routed.assign_client attached n
    dsimp only
    cases b.clients.lookup n <;> exact ⟨there, fun _ _ => ⟨c, same, lookup⟩⟩

theorem routes_arrive (origin : UInt32) (request : Message) :
    Routes settings name s requestBox replyBox requests replies
      { requests := (Traffic.arrived origin request (b.arrive (.queues settings) n origin request).1).map .message }
      (b.arrive (.queues settings) n origin request).2 := by
  have opening := openClient_routed routed n origin
  unfold arrive
  revert opening
  obtain ⟨f | o, b₁⟩ := b.openClient (.queues settings) n origin
  · rintro ⟨routed, -⟩
    exact .quiet routed
  · rintro ⟨routed, comes⟩
    obtain ⟨c, rfl, found⟩ := comes o rfl
    have attached := routed.attached found
    dsimp only at found routed ⊢
    rw [found]
    dsimp only [Medium.queues, QueueClient.port]
    obtain ⟨f, failed⟩ | ⟨encodes, sent⟩ := QueueClient.send_cases routed.holds attached request
    · rw [failed]
      exact .quiet (routed.assign_client attached n)
    · rw [sent]
      have holds := routed.holds.requested (Posting.sound_behind (p := .message _) routed.holds.sound.1 encodes)
      exact ⟨_, _, (routed.moved holds).assign_client attached n, .request _⟩

theorem routes_receiveFrom (client : String) (origin : UInt32) (request : Message) :
    Routes settings name s requestBox replyBox requests replies
      (Mail.ofCall (.queues settings) b (.receiveFrom n client origin request)
        (b.perform (.queues settings) (.receiveFrom n client origin request)).1)
      (b.perform (.queues settings) (.receiveFrom n client origin request)).2 := by
  simp only [perform, perform?]
  rw [receiveFrom_eq, lookup_single routed.servers]
  by_cases same : n = name
  · subst same
    have polling := routes_polled routed
    rw [if_pos rfl]
    rcases polled : (Medium.queues settings).poll (s, b.world) with ⟨early, s', w⟩
    rw [show QueueServer.poll (s, b.world) = _ from polled] at polling
    simp only [Option.map_some, Option.getD_some, polled, assign_single routed.servers]
    obtain ⟨_, _, waiting, first⟩ := polling
    obtain rfl : s' = s := by simpa using waiting.servers
    rcases arrived : arrive (.queues settings) client origin request
      { b with world := w, servers := [(n, s')] } with ⟨opened, b'⟩
    have arriving := routes_arrive waiting client origin request
    rw [arrived] at arriving
    obtain ⟨_, _, joined, second⟩ := arriving
    have both := first.trans second
    cases early with
    | some outcome =>
      refine ⟨_, _, ?_, both⟩
      rw [assign_single joined.servers]
      exact joined.served joined.holds
    | none =>
      obtain ⟨_, _, received, third⟩ := routes_received joined
      have all := both.trans third
      simp only [Mail.append, Option.toList_none, List.nil_append, List.append_nil] at all
      refine ⟨_, _, ?_, all⟩
      rw [assign_single joined.servers]
      exact received
  · rw [if_neg same]
    exact .quiet routed

theorem routes_silent {call : EndCall} (silent : ∀ answer, Mail.ofCall (.queues settings) b call answer = {})
    (keeps : ∀ r, perform? (.queues settings) call b = some r →
      Routed settings name s requestBox replyBox requests replies r.2) :
    Routes settings name s requestBox replyBox requests replies
      (Mail.ofCall (.queues settings) b call (b.perform (.queues settings) call).1)
      (b.perform (.queues settings) call).2 := by
  rw [silent]
  unfold perform
  cases performed : perform? (.queues settings) call b with
  | none => exact .quiet routed
  | some r => exact .quiet (keeps r performed)

theorem onServer_routed {f : QueueServer × Mailboxes → EndAnswer × QueueServer × Mailboxes}
    (same : (f (s, b.world)).2 = (s, b.world)) {r : EndAnswer × Bench Mailboxes QueueServer QueueClient}
    (called : b.onServer n f = some r) : Routed settings name s requestBox replyBox requests replies r.2 := by
  rw [onServer_single routed.servers, same] at called
  split at called
  · cases called
    exact routed.served routed.holds
  · cases called

theorem onClient_routed {f : QueueClient × Mailboxes → EndAnswer × QueueClient × Mailboxes}
    (keeps : ∀ c, c.Attached s → (f (c, b.world)).2.1.Attached s ∧ (f (c, b.world)).2.2 = b.world)
    {r : EndAnswer × Bench Mailboxes QueueServer QueueClient} (called : b.onClient n f = some r) :
    Routed settings name s requestBox replyBox requests replies r.2 := by
  obtain ⟨c, found, rfl⟩ := Option.map_eq_some_iff.1 called
  obtain ⟨attached, same⟩ := keeps c (routed.attached found)
  have there : Routed settings name s requestBox replyBox requests replies { b with world := (f (c, b.world)).2.2 } :=
    same.symm ▸ routed
  exact there.assign_client attached n

theorem replyBegin_routed {origin : UInt32} {r : EndAnswer × Bench Mailboxes QueueServer QueueClient}
    (called : perform? (.queues settings) (.replyBegin n origin) b = some r) :
    Routed settings name s requestBox replyBox requests replies r.2 := by
  obtain begun | ⟨-, begun⟩ := Option.or_eq_some_iff.1 called
  · exact onServer_routed routed n rfl begun
  · exact onClient_routed routed n (fun c attached => ⟨attached, rfl⟩) begun

theorem replyEnd_routed {r : EndAnswer × Bench Mailboxes QueueServer QueueClient}
    (called : perform? (.queues settings) (.replyEnd n) b = some r) :
    Routed settings name s requestBox replyBox requests replies r.2 := by
  obtain ended | ⟨-, ended⟩ := Option.or_eq_some_iff.1 called
  · exact onServer_routed routed n rfl ended
  · exact onClient_routed routed n (fun c attached => ⟨attached, rfl⟩) ended

theorem close_routed (other : n ≠ name) {r : EndAnswer × Bench Mailboxes QueueServer QueueClient}
    (called : perform? (.queues settings) (.close n) b = some r) :
    Routed settings name s requestBox replyBox requests replies r.2 := by
  simp only [perform?] at called
  rw [onServer_single routed.servers, if_neg other, Option.none_or] at called
  exact onClient_routed routed n (fun c attached => ⟨⟨attached.some, attached.requests, attached.replies⟩, rfl⟩) called

theorem drop_routed (other : n ≠ name) {r : EndAnswer × Bench Mailboxes QueueServer QueueClient}
    (called : perform? (.queues settings) (.drop n) b = some r) :
    Routed settings name s requestBox replyBox requests replies r.2 := by
  simp only [perform?, drop] at called
  rw [lookup_single routed.servers, if_neg other] at called
  cases found : b.clients.lookup n with
  | none => rw [found] at called; cases called
  | some c =>
    rw [found] at called
    cases called
    exact routed.unassign_client n

/-- Every call takes what waits first of what it asks for, puts something behind the rest, or does neither. -/
theorem routes_perform {call : EndCall} (keeps : Keeps name call) :
    Routes settings name s requestBox replyBox requests replies
      (Mail.ofCall (.queues settings) b call (b.perform (.queues settings) call).1)
      (b.perform (.queues settings) call).2 := by
  cases call with
  | openServer n => exact keeps.elim
  | receive n => exact routes_receive routed n
  | send n request => exact routes_send routed n request
  | replySend n reply => exact routes_replySend routed n reply
  | replyReceive n => exact routes_replyReceive routed n
  | receiveFrom n client origin request => exact routes_receiveFrom routed n client origin request
  | openClient n origin =>
    refine routes_silent routed (fun _ => rfl) fun r called => ?_
    cases called
    exact (openClient_routed routed n origin).1
  | replyBegin n origin => exact routes_silent routed (fun _ => rfl) fun _ => replyBegin_routed routed n
  | replyEnd n => exact routes_silent routed (fun _ => rfl) fun _ => replyEnd_routed routed n
  | close n => exact routes_silent routed (fun _ => rfl) fun _ => close_routed routed n keeps
  | drop n => exact routes_silent routed (fun _ => rfl) fun _ => drop_routed routed n keeps

theorem routes_put (key : Int32) (type : Int) (payload : List UInt8) :
    Routes settings name s requestBox replyBox requests replies (event settings (.put key type payload) b).1
      (event settings (.put key type payload) b).2 := by
  have holds := routed.holds
  simp only [event, find]
  cases found : b.world.idOf? key with
  | none => exact .quiet routed
  | some id =>
    obtain ⟨-, box, there, -⟩ := idOf?_eq_some found
    dsimp only
    obtain ⟨e, failed⟩ | ⟨-, sent⟩ := send_cases there type payload
    · rw [failed]
      exact .quiet routed
    rw [sent]
    have other : ∀ {key' : Int32} {n : Nat}, b.world.idOf? key' = some n → key ≠ key' → n ≠ id :=
      fun found' apart => (idOf?_ne found found' apart).symm
    by_cases server : key = settings.serverKey
    · subst server
      cases found.symm.trans holds.runs.requests
      cases there.symm.trans holds.requestLine
      have behind := holds.requested (Posting.sound_behind (p := .raw type.toNat payload) holds.sound.1 trivial)
      rw [List.map_append] at behind
      rw [Mail.under, if_pos rfl, if_neg holds.keys_ne]
      exact ⟨_, _, routed.moved behind, .request _⟩
    by_cases client : key = settings.clientKey
    · subst client
      cases found.symm.trans holds.runs.replies
      cases there.symm.trans holds.replyLine
      have behind := holds.replied (Posting.sound_behind (p := .raw type.toNat payload) holds.sound.2 trivial)
      rw [List.map_append] at behind
      rw [Mail.under, if_neg server, if_pos rfl]
      exact ⟨_, _, routed.moved behind, .reply _⟩
    · rw [Mail.under, if_neg server, if_neg client]
      exact ⟨_, _, routed.moved (holds.elsewhere there (other holds.runs.requests server)
        (other holds.runs.replies client)), .quiet⟩

end Calls

theorem routes_event (routed : Routed settings name s requestBox replyBox requests replies b) {e : Event}
    (keeps : ∀ call, e = .call call → Keeps name call) :
    Routes settings name s requestBox replyBox requests replies (event settings e b).1 (event settings e b).2 := by
  cases e with
  | call call => exact routes_perform routed (keeps call rfl)
  | put key type payload => exact routes_put routed key type payload

theorem routes_events (routed : Routed settings name s requestBox replyBox requests replies b) {es : List Event}
    (keeps : ∀ call, .call call ∈ es → Keeps name call) :
    Routes settings name s requestBox replyBox requests replies (events settings es b).1 (events settings es b).2 := by
  induction es generalizing requests replies b with
  | nil => exact .quiet routed
  | cons e es ih =>
    have first := routes_event routed fun call same => keeps call (same ▸ List.mem_cons_self)
    exact first.trans fun _ _ routed => ih routed fun call there => keeps call (List.mem_cons_of_mem e there)

theorem receive_first {p : Posting} (routed : Routed settings name s requestBox replyBox (p :: requests) replies b)
    (granted : grants requestBox 4 = true) :
    (b.perform (.queues settings) (.receive name)).1 = .message p.comes := by
  simp only [perform, perform?]
  rw [onServer_single routed.servers, if_pos rfl]
  refine congrArg EndAnswer.message ?_
  change (QueueServer.receive (s, b.world)).1 = p.comes
  obtain ⟨f, -, -, none⟩ | ⟨_, _, same, taken⟩ := QueueServer.receive_cases routed.holds
  · cases none granted
  · cases same
    rw [taken]

theorem replyReceive_first {p : Posting} {rest : List Posting} {n : String} {c : QueueClient}
    (routed : Routed settings name s requestBox replyBox requests replies b) (granted : grants replyBox 4 = true)
    (found : b.clients.lookup n = some c) (isOpen : c.closed = false)
    (next : replies.filter (·.type = c.origin.toNat) = p :: rest) :
    (b.perform (.queues settings) (.replyReceive n)).1 = .message p.comes := by
  simp only [perform, perform?, onClient]
  rw [found]
  refine congrArg EndAnswer.message ?_
  change (QueueClient.replyReceive (c, b.world)).1 = p.comes
  obtain ⟨f, -, -, none⟩ | ⟨front, p', back, rfl, same, others, taken⟩ :=
    QueueClient.replyReceive_cases routed.holds (routed.attached found)
  · have inside : p ∈ replies.filter (·.type = c.origin.toNat) := next ▸ List.mem_cons_self
    exact absurd (by simpa using (List.mem_filter.1 inside).2) (none isOpen granted p (List.mem_filter.1 inside).1)
  · have empty : front.filter (·.type = c.origin.toNat) = [] := by
      rw [List.filter_eq_nil_iff]
      intro o inside
      simpa [← same] using others o inside
    rw [List.filter_append, empty, List.nil_append, List.filter_cons_of_pos (by simpa using same)] at next
    cases next
    rw [taken]

/-- The two queues of a server stand under different keys, neither of them zero, which is the key of no queue. In every run of
the server and any number of clients, in which anybody puts any bytes on either queue, the server takes the requests in the
order in which they were put, one at a time, and the rest waits. Whoever receives replies takes the first one that is left of
its own type and leaves the others in their order. A message that was sent is received with the origin of its sender, and what
is not of a frame's size as that. What waits first is received next. -/
theorem taken_by_type {q world : Mailboxes} {server : QueueServer} (requestKey : settings.serverKey ≠ 0)
    (replyKey : settings.clientKey ≠ 0) (apart : settings.serverKey ≠ settings.clientKey)
    (opened : QueueServer.openOn settings q = (.ok server, world)) {es : List Event}
    (keeps : ∀ call, .call call ∈ es → Keeps name call) :
    let ran := events settings es { world, servers := [(name, server)] }
    let requests := Posting.found (world.lettersOf server.requests.id) ++ ran.1.requests
    let replies := Posting.found (world.lettersOf server.replies.id) ++ ran.1.replies
    ∃ served waiting taken left : List Posting,
      (requests = served ++ waiting ∧ ran.1.taken = served.map Posting.comes ∧
        ran.2.world.lettersOf server.requests.id = waiting.map Posting.letter) ∧
      (Drained taken replies left ∧ ran.1.handed = taken.map (fun p => (p.type, p.comes)) ∧
        ran.2.world.lettersOf server.replies.id = left.map Posting.letter) ∧
      (∀ type, taken.filter (·.type = type) ++ left.filter (·.type = type) = replies.filter (·.type = type)) ∧
      (∀ box, world.box? server.requests.id = some box → grants box 4 = true → ∀ p rest, waiting = p :: rest →
        (ran.2.perform (.queues settings) (.receive name)).1 = .message p.comes) ∧
      ∀ box, world.box? server.replies.id = some box → grants box 4 = true → ∀ n c, ran.2.clients.lookup n = some c →
        c.closed = false → ∀ p rest, left.filter (·.type = c.origin.toNat) = p :: rest →
          (ran.2.perform (.queues settings) (.replyReceive n)).1 = .message p.comes := by
  intro ran requests replies
  have runs := QueueServer.openOn_runs requestKey replyKey opened
  obtain ⟨-, requestBox, requestThere, -⟩ := idOf?_eq_some runs.requests
  obtain ⟨-, replyBox, replyThere, -⟩ := idOf?_eq_some runs.replies
  have holds : server.Holds settings requestBox replyBox (Posting.found (world.lettersOf server.requests.id))
      (Posting.found (world.lettersOf server.replies.id)) world :=
    { runs := runs
      apart := runs.ids_ne apart
      requestLine := by rw [Posting.letters_found, lettersOf_of_box? requestThere, requestThere]
      replyLine := by rw [Posting.letters_found, lettersOf_of_box? replyThere, replyThere]
      sound := ⟨Posting.sound_found, Posting.sound_found⟩ }
  have routed : Routed settings name server requestBox replyBox _ _ { world, servers := [(name, server)] } :=
    ⟨rfl, holds, by simp⟩
  obtain ⟨waiting, left, still, ⟨served, line, took⟩, taken, drained, handed⟩ := routes_events routed keeps
  refine ⟨served, waiting, taken, left, ⟨line, took, lettersOf_of_box? still.holds.requestLine⟩,
    ⟨drained, handed, lettersOf_of_box? still.holds.replyLine⟩, drained.filter_type, ?_, ?_⟩
  · rintro box there granted p rest rfl
    cases there.symm.trans requestThere
    exact receive_first still granted
  · rintro box there granted n c found isOpen p rest next
    cases there.symm.trans replyThere
    exact replyReceive_first still granted found isOpen next

section Callers

def callers : List Event :=
  [.call (.openClient "a" 5), .call (.openClient "b" 6), .call (.send "a" (.ofRequest 9 (.getCatalog "CD1"))),
    .put 1234 9 [1, 2, 3], .call (.send "b" (.ofRequest 5 (.getCatalog "CD2"))),
    .put 4321 5 (List.replicate (Frame.size + 7) 0), .call (.receive "s"), .call (.receive "s"),
    .call (.replySend "s" (.ofRequest 6 (.getCatalog "CD2"))), .call (.replySend "s" (.ofRequest 5 .createDatabase)),
    .call (.replyReceive "a"), .call (.replyReceive "a"), .put 4321 7 [], .call (.close "a"),
    .call (.replyReceive "b"), .call (.receive "s"), .call (.receiveFrom "s" "c" 7 (.ofRequest 0 .createDatabase))]

theorem taken_by_type_callers :
    ∃ server world, QueueServer.openOn {} {} = (.ok server, world) ∧
      (∀ call, .call call ∈ callers → Keeps "s" call) ∧
      let ran := events {} callers { world, servers := [("s", server)] }
      let requests := Posting.found (world.lettersOf server.requests.id) ++ ran.1.requests
      let replies := Posting.found (world.lettersOf server.replies.id) ++ ran.1.replies
      ∃ served waiting taken left : List Posting,
        (requests = served ++ waiting ∧ ran.1.taken = served.map Posting.comes ∧
          ran.2.world.lettersOf server.requests.id = waiting.map Posting.letter) ∧
        (Drained taken replies left ∧ ran.1.handed = taken.map (fun p => (p.type, p.comes)) ∧
          ran.2.world.lettersOf server.replies.id = left.map Posting.letter) ∧
        (∀ type, taken.filter (·.type = type) ++ left.filter (·.type = type) = replies.filter (·.type = type)) ∧
        (∀ box, world.box? server.requests.id = some box → grants box 4 = true → ∀ p rest, waiting = p :: rest →
          (ran.2.perform (.queues {}) (.receive "s")).1 = .message p.comes) ∧
        ∀ box, world.box? server.replies.id = some box → grants box 4 = true → ∀ n c, ran.2.clients.lookup n = some c →
          c.closed = false → ∀ p rest, left.filter (·.type = c.origin.toNat) = p :: rest →
            (ran.2.perform (.queues {}) (.replyReceive n)).1 = .message p.comes := by
  have opened : QueueServer.openOn {} {} =
      (.ok (QueueServer.mk ⟨1234, 0⟩ ⟨4321, 1⟩ false),
        { boxes := [some { key := 1234, permissions := 0o666 }, some { key := 4321, permissions := 0o666 }] }) := rfl
  have keeps : ∀ call, .call call ∈ callers → Keeps "s" call := by
    intro call there
    simp only [callers, List.mem_cons, Event.call.injEq, reduceCtorEq, false_or, List.not_mem_nil, or_false] at there
    rcases there with rfl | rfl | rfl | rfl | rfl | rfl | rfl | rfl | rfl | rfl | rfl | rfl | rfl | rfl <;>
      simp [Keeps]
  exact ⟨_, _, opened, keeps, taken_by_type (by decide) (by decide) (by decide) opened keeps⟩

end Callers

end Bench

end DiscCatalog
