import DiscCatalog.Proofs.Channel.Ledger
import DiscCatalog.Proofs.Entries

namespace DiscCatalog

open Host

namespace Bench

def Keyed (clients : List (String × PipeClient)) : Prop := ∀ e ∈ clients, ∀ e' ∈ clients, e.1 = e'.1 → e = e'

section Names

variable {α : Type} {n : String} {a : α} {es : List (String × α)} {e : String × α}

theorem mem_assign : e ∈ assign n a es ↔ e = (n, a) ∨ e ∈ es ∧ e.1 ≠ n := by
  simp [assign]

theorem mem_unassign : e ∈ unassign n es ↔ e ∈ es ∧ e.1 ≠ n := by
  simp [unassign]

end Names

namespace Keyed

variable {clients : List (String × PipeClient)} {n : String} {c : PipeClient}

theorem assign (keyed : Keyed clients) (n : String) (c : PipeClient) : Keyed (assign n c clients) := by
  intro e inside e' inside' same
  obtain rfl | ⟨there, other⟩ := mem_assign.1 inside <;> obtain rfl | ⟨there', other'⟩ := mem_assign.1 inside'
  · rfl
  · exact absurd same.symm other'
  · exact absurd same other
  · exact keyed e there e' there' same

theorem unassign (keyed : Keyed clients) (n : String) : Keyed (unassign n clients) :=
  fun e inside e' inside' => keyed e (mem_unassign.1 inside).1 e' (mem_unassign.1 inside').1

theorem cover (keyed : Keyed clients) (found : clients.lookup n = some c) (e : String × PipeClient) (there : e ∈ clients) :
    e = (n, c) ∨ e.1 ≠ n := by
  by_cases same : e.1 = n
  · exact .inl (keyed e there (n, c) (mem_of_lookup found) same)
  · exact .inr same

end Keyed

theorem hosts_assign {b : Bench Host PipeServer PipeClient} {n : String} {c : PipeClient} (keyed : Keyed b.clients)
    (found : b.clients.lookup n = some c) {world : Host} {servers : List (String × PipeServer)} {c' : PipeClient}
    (origin : c'.origin = c.origin) (closed : c'.closed = c.closed) (o : UInt32) :
    Hosts { world, servers, clients := assign n c' b.clients } o ↔ b.Hosts o := by
  constructor
  · rintro ⟨e, inc, same, isOpen⟩
    obtain rfl | ⟨inb, -⟩ := mem_assign.1 inc
    · exact ⟨(n, c), mem_of_lookup found, origin.symm.trans same, closed.symm.trans isOpen⟩
    · exact ⟨e, inb, same, isOpen⟩
  · rintro ⟨e, inb, same, isOpen⟩
    obtain rfl | other := keyed.cover found e inb
    · exact ⟨(n, c'), mem_assign.2 (.inl rfl), origin.trans same, closed.trans isOpen⟩
    · exact ⟨e, mem_assign.2 (.inr ⟨inb, other⟩), same, isOpen⟩

structure Attended (settings : PipeSettings) (name : String) (home : Location) (gate : Nat) (known : UInt32 → Prop)
    (s : PipeServer) (l : Ledger) (b : Bench Host PipeServer PipeClient) : Prop where
  attends : Attends settings name home gate known s (l.among b) b
  keyed : Keyed b.clients

def Stays (settings : PipeSettings) (name : String) (home : Location) (gate : Nat) (known : UInt32 → Prop) (l : Ledger)
    (b : Bench Host PipeServer PipeClient) (call : EndCall) : Prop :=
  ∃ s, Attended settings name home gate known s (l.ofCall b call (b.perform (.pipes settings) call).1)
    (b.perform (.pipes settings) call).2

section Turns

variable {settings : PipeSettings} {name : String} {home : Location} {gate pipe : Nat} {known : UInt32 → Prop}
  {s : PipeServer} {l l' : Ledger} {b : Bench Host PipeServer PipeClient} {w : Host} {c c' : PipeClient}
  {waiting left : List Message}

theorem Attends.attended (attends : Attends settings name home gate known s l b) (keyed : Keyed b.clients) :
    Attended settings name home gate known s l b :=
  ⟨(Ledger.among_eq attends.nothing).symm ▸ attends, keyed⟩

variable (attends : Attends settings name home gate known s l b) (keyed : Keyed b.clients) (n : String)

include attends

theorem staff (s' : PipeServer) : ∀ e ∈ assign name s' b.servers, e = (name, s') := by
  intro e inside
  obtain same | ⟨there, other⟩ := mem_assign.1 inside
  · exact same
  · exact absurd (congrArg Prod.fst (attends.servers e there)) other

theorem server_there {s' : PipeServer} (found : b.servers.lookup n = some s') : n = name ∧ s' = s :=
  Prod.mk.inj (attends.servers _ (mem_of_lookup found))

theorem onServer_cases (f : PipeServer × Host → EndAnswer × PipeServer × Host) :
    b.servers.lookup n = none ∧ b.onServer n f = none ∨
      n = name ∧ b.servers.lookup n = some s ∧ b.onServer n f = some ((f (s, b.world)).1,
        { b with world := (f (s, b.world)).2.2, servers := assign n (f (s, b.world)).2.1 b.servers }) := by
  unfold onServer
  cases found : b.servers.lookup n with
  | none => exact .inl ⟨rfl, rfl⟩
  | some s' =>
    obtain ⟨same, rfl⟩ := server_there attends n found
    exact .inr ⟨same, rfl, rfl⟩

include keyed

theorem acted {n : String} (found : b.clients.lookup n = some c) (before : c.Keeps settings home gate pipe left b.world)
    (same : c'.origin = c.origin) (confined : Confined gate (replyPlace home c.origin) b.world w)
    (keeps : c'.Keeps settings home gate pipe waiting w) (owed : l'.read c.origin ++ waiting = l'.sent c.origin)
    (session : l'.session = l.session) (others : ∀ o, o ≠ c.origin → l'.sent o = l.sent o ∧ l'.read o = l.read o)
    (writer : c'.writer = c.writer ∨ ∀ i ∈ c'.writer, b.world.handles.length ≤ i) :
    Attended settings name home gate known s l' { b with world := w, clients := assign n c' b.clients } := by
  have there : (n, c) ∈ b.clients := mem_of_lookup found
  have anew : (n, c') ∈ assign n c' b.clients := mem_assign.2 (.inl rfl)
  refine (attends.client there before same confined keeps owed session others writer anew (fun e inside => ?_)
    fun e inb => ?_).attended (keyed.assign n c')
  · refine (mem_assign.1 inside).imp_right fun ⟨inb, other⟩ => ⟨inb, ?_⟩
    rintro rfl
    exact other rfl
  · exact (keyed.cover found e inb).imp_right fun other => mem_assign.2 (.inr ⟨inb, other⟩)

theorem rested {n : String} (found : b.clients.lookup n = some c) :
    Attended settings name home gate known s l { b with clients := assign n c b.clients } := by
  refine (attends.sifted (fun e inside => ?_) fun e inb _ => ?_).attended (keyed.assign n c)
  · obtain rfl | ⟨inb, -⟩ := mem_assign.1 inside
    · exact mem_of_lookup found
    · exact inb
  · obtain rfl | other := keyed.cover found e inb
    · exact mem_assign.2 (.inl rfl)
    · exact mem_assign.2 (.inr ⟨inb, other⟩)

section Performed

variable {call : EndCall} {r : EndAnswer × Bench Host PipeServer PipeClient}
  {f : PipeServer × Host → EndAnswer × PipeServer × Host} {g : PipeClient × Host → EndAnswer × PipeClient × Host}

omit attends keyed in
theorem stays_of_some (performed : perform? (.pipes settings) call b = some r)
    (goes : ∃ s', Attended settings name home gate known s' (l.ofCall b call r.1) r.2) :
    Stays settings name home gate known l b call := by
  unfold Stays perform
  rw [performed]
  exact goes

theorem stays_of_none (performed : perform? (.pipes settings) call b = none)
    (still : l.ofCall b call .noSuchEnd = l) : Stays settings name home gate known l b call := by
  unfold Stays perform
  rw [performed, Option.getD_none, still]
  exact ⟨s, attends.attended keyed⟩

/-- A call on the server, or, where the server has another name, on a client. -/
theorem stays_either (performed : perform? (.pipes settings) call b = (b.onServer n f).or (b.onClient n g))
    (still : b.servers.lookup n = none → l.ofCall b call .noSuchEnd = l)
    (server : n = name → b.servers.lookup n = some s →
      ∃ s', Attended settings name home gate known s' (l.ofCall b call (f (s, b.world)).1)
        { b with world := (f (s, b.world)).2.2, servers := assign name (f (s, b.world)).2.1 b.servers })
    (client : b.servers.lookup n = none → ∀ c, b.clients.lookup n = some c →
      ∃ s', Attended settings name home gate known s' (l.ofCall b call (g (c, b.world)).1)
        { b with world := (g (c, b.world)).2.2, clients := assign n (g (c, b.world)).2.1 b.clients }) :
    Stays settings name home gate known l b call := by
  obtain ⟨gone, none⟩ | ⟨rfl, there, onServer⟩ := onServer_cases attends n f
  · rw [none, Option.none_or] at performed
    cases found : b.clients.lookup n with
    | none => exact stays_of_none attends keyed (performed.trans (onClient_gone found g)) (still gone)
    | some c => exact stays_of_some (performed.trans (onClient_there found g)) (client gone c found)
  · rw [onServer, Option.some_or] at performed
    exact stays_of_some performed (server rfl there)

theorem stays_server (performed : perform? (.pipes settings) call b = b.onServer n f)
    (still : l.ofCall b call .noSuchEnd = l)
    (server : ∃ s', Attended settings name home gate known s' (l.ofCall b call (f (s, b.world)).1)
      { b with world := (f (s, b.world)).2.2, servers := assign name (f (s, b.world)).2.1 b.servers }) :
    Stays settings name home gate known l b call := by
  obtain ⟨-, none⟩ | ⟨rfl, -, onServer⟩ := onServer_cases attends n f
  · exact stays_of_none attends keyed (performed.trans none) still
  · exact stays_of_some (performed.trans onServer) server

theorem stays_client (performed : perform? (.pipes settings) call b = b.onClient n g)
    (still : l.ofCall b call .noSuchEnd = l)
    (client : ∀ c, b.clients.lookup n = some c →
      ∃ s', Attended settings name home gate known s' (l.ofCall b call (g (c, b.world)).1)
        { b with world := (g (c, b.world)).2.2, clients := assign n (g (c, b.world)).2.1 b.clients }) :
    Stays settings name home gate known l b call := by
  cases found : b.clients.lookup n with
  | none => exact stays_of_none attends keyed (performed.trans (onClient_gone found g)) still
  | some c => exact stays_of_some (performed.trans (onClient_there found g)) (client c found)

end Performed

theorem attended_receive : Stays settings name home gate known l b (.receive n) := by
  have inward := PipeServer.receive_inward attends.front attends.path attends.inbound
  refine stays_server attends keyed n (f := fun w => (.message (PipeServer.receive w).1, (PipeServer.receive w).2))
    rfl rfl ?_
  exact ⟨_, (attends.inward inward (staff attends _)).attended keyed⟩

theorem attended_receiving :
    ∃ s', Attended settings name home gate known s' l (turn (.pipes settings) (.receiving n) b).2 := by
  unfold turn
  dsimp only
  cases found : b.servers.lookup n with
  | none => exact ⟨s, attends.attended keyed⟩
  | some s' =>
    obtain ⟨rfl, rfl⟩ := server_there attends n found
    have inward := PipeServer.poll_inward attends.front attends.path attends.inbound
    exact ⟨_, (attends.inward inward (staff attends _)).attended keyed⟩

theorem sent (found : b.clients.lookup n = some c) (m : Message) :
    Attended settings name home gate known s l { b with
      world := (PipeClient.send m (c, b.world)).2.2
      clients := assign n (PipeClient.send m (c, b.world)).2.1 b.clients } := by
  cases closed : c.closed with
  | true =>
    have gone : c.toServer = none := (attends.left _ (mem_of_lookup found) closed).toServer
    rw [PipeClient.send_closed gone]
    exact rested attends keyed found
  | false =>
    obtain ⟨pipe, waiting, keeps, owed⟩ := attends.clients _ (mem_of_lookup found) closed
    have aloof := keeps.send m
    have same := PipeClient.send_client m c b.world
    refine acted attends keyed found keeps (by rw [same]) (aloof _) ?_ owed rfl (fun _ _ => ⟨rfl, rfl⟩)
      (.inl (by rw [same]))
    rw [same]
    exact keeps.aloof aloof

theorem attended_send (m : Message) : Stays settings name home gate known l b (.send n m) := by
  refine stays_client attends keyed n (g := fun w => (.done (PipeClient.send m w).1, (PipeClient.send m w).2))
    rfl rfl fun c found => ?_
  exact ⟨s, sent attends keyed n found m⟩

theorem begun (found : b.clients.lookup n = some c) :
    Attended settings name home gate known s l { b with
      world := (PipeClient.replyBegin (c, b.world)).2.2
      clients := assign n (PipeClient.replyBegin (c, b.world)).2.1 b.clients } := by
  cases closed : c.closed with
  | true =>
    rw [PipeClient.replyBegin_closed closed]
    exact rested attends keyed found
  | false =>
    obtain ⟨pipe, waiting, keeps, owed⟩ := attends.clients _ (mem_of_lookup found) closed
    obtain ⟨-, same⟩ | ⟨-, w, confined, ⟨f, failed, -, -, still⟩ | ⟨r, v, opened, new, reads⟩⟩ :=
      keeps.replyBegin attends.front.leads
    · rw [same]
      exact rested attends keyed found
    · rw [failed]
      exact acted attends keyed found keeps rfl confined still owed rfl (fun _ _ => ⟨rfl, rfl⟩) (.inl rfl)
    · rw [opened]
      refine acted attends keyed found keeps rfl confined reads owed rfl (fun _ _ => ⟨rfl, rfl⟩) (.inr ?_)
      rintro i ⟨⟩
      exact new

theorem attended_replyBegin {origin : UInt32} (knows : n = name → known origin) :
    Stays settings name home gate known l b (.replyBegin n origin) := by
  refine stays_either attends keyed n (f := fun w => (.done (PipeServer.replyBegin origin w).1,
    (PipeServer.replyBegin origin w).2)) rfl (fun _ => rfl) (fun same there => ?_) fun gone c found => ?_
  · obtain ⟨f, failed⟩ | ⟨s', w, begun, attends'⟩ := attends.replyBegin (knows same)
    · rw [failed]
      exact ⟨s, Attends.attended { attends with servers := staff attends s } keyed⟩
    · rw [begun]
      simp only [Ledger.ofCall, there, Option.isSome_some, if_true]
      exact ⟨s', (attends' _ (staff attends s')).attended keyed⟩
  · rw [Ledger.ofCall_replyBegin gone]
    exact ⟨s, begun attends keyed n found⟩

theorem attended_replySend (m : Message) : Stays settings name home gate known l b (.replySend n m) := by
  refine stays_server attends keyed n (f := fun w => (.done (PipeServer.replySend m w).1,
    (PipeServer.replySend m w).2)) rfl rfl ?_
  obtain ⟨f, failed⟩ | ⟨w, sent, attends'⟩ := attends.replySend m
  · rw [failed]
    exact ⟨s, Attends.attended { attends with servers := staff attends s } keyed⟩
  · rw [sent]
    exact ⟨s, Attends.attended { attends' with servers := staff attends s } keyed⟩

theorem attended_replyReceive : Stays settings name home gate known l b (.replyReceive n) := by
  refine stays_client attends keyed n (g := fun w => (.message (PipeClient.replyReceive w).1,
    (PipeClient.replyReceive w).2)) rfl rfl fun c found => ?_
  cases closed : c.closed with
  | true =>
    have gone : c.reader = none := (attends.left _ (mem_of_lookup found) closed).reader
    rw [PipeClient.replyReceive_unbegun gone]
    exact ⟨s, rested attends keyed found⟩
  | false =>
    obtain ⟨pipe, waiting, keeps, owed⟩ := attends.clients _ (mem_of_lookup found) closed
    obtain ⟨w, received, confined, reads⟩ := keeps.replyReceive
    rw [received]
    cases waiting with
    | nil => exact ⟨s, acted attends keyed found keeps rfl confined reads owed rfl (fun _ _ => ⟨rfl, rfl⟩) (.inl rfl)⟩
    | cons m rest =>
      have ledger : l.ofCall b (.replyReceive n) (.message (c.given (m :: rest))) = l.receive c.origin m := by
        simp only [PipeClient.given, Ledger.ofCall, found]
      rw [ledger]
      refine ⟨s, acted attends keyed found keeps rfl confined reads ?_ rfl (fun o other => ?_) (.inl rfl)⟩
      · simpa [Ledger.receive] using owed
      · simp [Ledger.receive, other]

theorem attended_replyEnd : Stays settings name home gate known l b (.replyEnd n) := by
  refine stays_either attends keyed n rfl (fun gone => ?_) (fun _ there => ?_) fun gone c found => ?_
  · rw [Ledger.ofCall_replyEnd, gone]
    rfl
  · rw [Ledger.ofCall_replyEnd, there]
    exact ⟨_, (attends.replyEnd none (staff attends _)).attended keyed⟩
  · rw [Ledger.ofCall_replyEnd, gone]
    exact ⟨s, rested attends keyed found⟩

omit keyed in
theorem parted (there : (n, c) ∈ b.clients) {clients : List (String × PipeClient)}
    (into : ∀ e ∈ clients, e ∈ b.clients ∧ e ≠ (n, c) ∨ e = (n, (PipeClient.close (c, b.world)).1))
    (cover : ∀ e ∈ b.clients, e = (n, c) ∨ e ∈ clients) (keyed : Keyed clients) :
    Attended settings name home gate known s l { b with world := (PipeClient.close (c, b.world)).2, clients } := by
  cases closed : c.closed with
  | true =>
    rw [PipeClient.close_closed closed] at into ⊢
    refine (attends.sifted (fun e inside => ?_) fun e inb isOpen => ?_).attended keyed
    · obtain ⟨inb, -⟩ | rfl := into e inside
      · exact inb
      · exact there
    · obtain rfl | inside := cover e inb
      · cases isOpen.symm.trans closed
      · exact inside
  | false =>
    obtain ⟨pipe, waiting, keeps, -⟩ := attends.clients _ there closed
    obtain ⟨same, confined, unread, vacant⟩ := keeps.leave attends.front
    refine ⟨attends.client_left there keeps confined unread vacant (fun e inside => ?_) cover, keyed⟩
    refine (into e inside).imp_right ?_
    rintro rfl
    dsimp only
    rw [same]
    exact ⟨rfl, rfl, rfl, rfl⟩

theorem attended_close : Stays settings name home gate known l b (.close n) := by
  refine stays_either attends keyed n rfl (fun _ => rfl) (fun _ _ => ?_) fun _ c found => ?_
  · exact ⟨_, (attends.close (staff attends _)).attended keyed⟩
  · refine ⟨s, parted attends n (mem_of_lookup found) (fun e inside => ?_) (fun e inb => ?_) (keyed.assign n _)⟩
    · exact (mem_assign.1 inside).symm.imp_left fun ⟨inb, other⟩ => ⟨inb, ne_of_apply_ne Prod.fst other⟩
    · exact (keyed.cover found e inb).imp_right fun other => mem_assign.2 (.inr ⟨inb, other⟩)

theorem attended_drop : Stays settings name home gate known l b (.drop n) := by
  unfold Stays perform perform? drop
  dsimp only
  cases there : b.servers.lookup n with
  | none =>
    cases found : b.clients.lookup n with
    | none => exact ⟨s, attends.attended keyed⟩
    | some c =>
      refine ⟨s, parted attends n (mem_of_lookup found) (fun e inside => .inl ?_) (fun e inb => ?_) (keyed.unassign n)⟩
      · obtain ⟨inb, other⟩ := mem_unassign.1 inside
        exact ⟨inb, ne_of_apply_ne Prod.fst other⟩
      · exact (keyed.cover found e inb).imp_right fun other => mem_unassign.2 ⟨inb, other⟩
  | some s' =>
    obtain ⟨rfl, rfl⟩ := server_there attends n there
    refine ⟨_, (attends.close fun e inside => ?_).attended keyed⟩
    obtain ⟨inb, other⟩ := mem_unassign.1 inside
    exact absurd (congrArg Prod.fst (attends.servers e inb)) other

theorem came {origin : UInt32} (distinct : ¬ b.Hosts origin) :
    Attended settings name home gate known s l (openClient (.pipes settings) n origin b).2 := by
  have came := PipeClient.openOn_came attends.front origin
  unfold openClient
  rcases opened : PipeClient.openOn settings origin b.world with ⟨f | c, w⟩ <;>
    rw [opened] at came <;>
    simp only [show (Medium.pipes settings).openClient origin b.world = _ from opened]
  · exact (attends.client_failed distinct came).attended keyed
  · have attends' := attends.client_came n distinct came
    cases found : b.clients.lookup n with
    | none =>
      refine (attends'.sifted (fun e inside => ?_) fun e inb _ => ?_).attended (keyed.assign n c)
      · exact List.mem_cons.2 ((mem_assign.1 inside).imp_right And.left)
      · exact mem_assign.2 ((List.mem_cons.1 inb).imp_right fun there => ⟨there, ne_of_lookup found there⟩)
    | some old =>
      refine parted attends' n (List.mem_cons_of_mem _ (mem_of_lookup found)) (fun e inside => .inl ?_) (fun e inb => ?_)
        (keyed.assign n c)
      · obtain rfl | ⟨inb, other⟩ := mem_assign.1 inside
        · refine ⟨List.mem_cons_self, ?_⟩
          rintro ⟨⟩
          obtain ⟨origin, -, pipe, keeps⟩ := came.opened c rfl
          exact distinct ⟨_, mem_of_lookup found, origin, keeps.isOpen⟩
        · exact ⟨List.mem_cons_of_mem _ inb, ne_of_apply_ne Prod.fst other⟩
      · obtain rfl | inb := List.mem_cons.1 inb
        · exact .inr (mem_assign.2 (.inl rfl))
        · exact (keyed.cover found e inb).imp_right fun other => mem_assign.2 (.inr ⟨inb, other⟩)

theorem attended_openClient {origin : UInt32} (distinct : ¬ b.Hosts origin) :
    Stays settings name home gate known l b (.openClient n origin) :=
  ⟨s, came attends keyed n distinct⟩

theorem arrived {origin : UInt32} (distinct : ¬ b.Hosts origin) (m : Message) :
    Attended settings name home gate known s l (arrive (.pipes settings) n origin m b).2 := by
  obtain ⟨attends', keyed'⟩ := came attends keyed n distinct
  unfold arrive
  generalize openClient (.pipes settings) n origin b = result at *
  obtain ⟨opened, b'⟩ := result
  dsimp only at attends' keyed' ⊢
  split
  · next c found =>
    obtain ⟨attends'', keyed''⟩ := sent attends' keyed' n found m
    refine ⟨?_, keyed''⟩
    have same := PipeClient.send_client m c b'.world
    rwa [Ledger.among_among fun o => (hosts_assign keyed' found (by rw [same]) (by rw [same]) o).1] at attends''
  · exact ⟨attends', keyed'⟩

theorem attended_receiveFrom {client : String} {origin : UInt32} (distinct : ¬ b.Hosts origin) (m : Message) :
    Stays settings name home gate known l b (.receiveFrom n client origin m) := by
  unfold Stays perform perform?
  dsimp only
  rw [receiveFrom_eq]
  cases found : b.servers.lookup n with
  | none => exact ⟨s, attends.attended keyed⟩
  | some s' =>
    obtain ⟨rfl, rfl⟩ := server_there attends n found
    have polling : PipeServer.Inward gate s' b.world ((Medium.pipes settings).poll (s', b.world)).2 :=
      PipeServer.poll_inward attends.front attends.path attends.inbound
    rcases polled : (Medium.pipes settings).poll (s', b.world) with ⟨early, s, w⟩
    rw [polled] at polling
    have arriving := arrived (attends.inward polling (staff attends s)) keyed client distinct m
    rcases came : arrive (.pipes settings) client origin m { b with world := w, servers := assign n s b.servers } with
      ⟨opened, b'⟩
    rw [came] at arriving
    obtain ⟨attends', keyed'⟩ := arriving
    simp only [Option.map_some, Option.getD_some, polled, came]
    cases early with
    | some outcome =>
      exact ⟨s, { attends' with servers := staff attends' s }, keyed'⟩
    | none =>
      have inward := PipeServer.receive_inward attends'.front attends'.path attends'.inbound
      exact ⟨_, attends'.inward inward (staff attends' _), keyed'⟩

end Turns

def Turn.opens? : Turn → Option UInt32
  | .call (.openClient _ origin) | .call (.receiveFrom _ _ origin _) => some origin
  | _ => none

/-- Whenever a client is opened, no other one is open under its origin. -/
def Distinct (settings : PipeSettings) : List Turn → Bench Host PipeServer PipeClient → Prop
  | [], _ => True
  | t :: turns, b => (∀ o ∈ t.opens?, ¬ b.Hosts o) ∧ Distinct settings turns (turn (.pipes settings) t b).2

section Origins

variable {settings : PipeSettings} {b : Bench Host PipeServer PipeClient} {n : String} {o origin : UInt32}

theorem hosts_onClient {f : PipeClient × Host → EndAnswer × PipeClient × Host}
    (keeps : ∀ c : PipeClient, c.Remains (f (c, b.world)).2.1) {r : EndAnswer × Bench Host PipeServer PipeClient}
    (called : b.onClient n f = some r) (hosted : r.2.Hosts o) : b.Hosts o := by
  obtain ⟨c, found, rfl⟩ := Option.map_eq_some_iff.1 called
  obtain ⟨e, inside, same, isOpen⟩ := hosted
  obtain rfl | ⟨there, -⟩ := mem_assign.1 inside
  · exact ⟨(n, c), mem_of_lookup found, (keeps c).1.symm.trans same, (keeps c).2 isOpen⟩
  · exact ⟨e, there, same, isOpen⟩

theorem hosts_onServer {f : PipeServer × Host → EndAnswer × PipeServer × Host}
    {r : EndAnswer × Bench Host PipeServer PipeClient} (called : b.onServer n f = some r) (hosted : r.2.Hosts o) :
    b.Hosts o := by
  obtain ⟨s, -, rfl⟩ := Option.map_eq_some_iff.1 called
  exact hosted

theorem hosts_openClient (hosted : (openClient (.pipes settings) n origin b).2.Hosts o) : b.Hosts o ∨ origin = o := by
  unfold openClient at hosted
  rcases opened : (Medium.pipes settings).openClient origin b.world with ⟨f | c, w⟩ <;> rw [opened] at hosted
  · exact .inl hosted
  · obtain ⟨e, inside, same, isOpen⟩ := hosted
    obtain rfl | ⟨there, -⟩ := mem_assign.1 inside
    · exact .inr ((PipeClient.openOn_origin opened).symm.trans same)
    · exact .inl ⟨e, there, same, isOpen⟩

theorem hosts_arrive {m : Message} (hosted : (arrive (.pipes settings) n origin m b).2.Hosts o) :
    b.Hosts o ∨ origin = o := by
  have before : (openClient (.pipes settings) n origin b).2.Hosts o → b.Hosts o ∨ origin = o := hosts_openClient
  unfold arrive at hosted
  generalize openClient (.pipes settings) n origin b = result at *
  obtain ⟨opened, b'⟩ := result
  dsimp only at hosted
  split at hosted
  · next c found =>
    have same := PipeClient.send_client m c b'.world
    obtain ⟨e, inside, origin, isOpen⟩ := hosted
    obtain rfl | ⟨there, -⟩ := mem_assign.1 inside
    · exact before ⟨(n, c), mem_of_lookup found, same ▸ origin, same ▸ isOpen⟩
    · exact before ⟨e, there, origin, isOpen⟩
  · exact before hosted

theorem hosts_call {call : EndCall} {r : EndAnswer × Bench Host PipeServer PipeClient}
    (called : perform? (.pipes settings) call b = some r) (hosted : r.2.Hosts o) :
    b.Hosts o ∨ (Turn.call call).opens? = some o := by
  cases call with
  | openServer n =>
    cases called
    unfold openServer at hosted
    split at hosted <;> exact .inl hosted
  | openClient n origin =>
    cases called
    exact (hosts_openClient hosted).imp_right (congrArg some)
  | receiveFrom n client origin m =>
    simp only [perform?, receiveFrom_eq] at called
    obtain ⟨s, -, rfl⟩ := Option.map_eq_some_iff.1 called
    exact (hosts_arrive hosted).imp_right (congrArg some)
  | receive n =>
    simp only [perform?] at called
    exact .inl (hosts_onServer called hosted)
  | replySend n m =>
    simp only [perform?] at called
    exact .inl (hosts_onServer called hosted)
  | send n m =>
    simp only [perform?] at called
    exact .inl (hosts_onClient (fun c => .of_eq (PipeClient.send_client m c b.world)) called hosted)
  | replyReceive n =>
    simp only [perform?] at called
    exact .inl (hosts_onClient (fun c => .of_eq (PipeClient.replyReceive_client c b.world)) called hosted)
  | replyBegin n o =>
    obtain called | ⟨-, called⟩ := Option.or_eq_some_iff.1 called
    · exact .inl (hosts_onServer called hosted)
    · exact .inl (hosts_onClient (fun c => PipeClient.replyBegin_remains c b.world) called hosted)
  | replyEnd n =>
    obtain called | ⟨-, called⟩ := Option.or_eq_some_iff.1 called
    · exact .inl (hosts_onServer called hosted)
    · exact .inl (hosts_onClient (fun c => .of_eq rfl) called hosted)
  | close n =>
    obtain called | ⟨-, called⟩ := Option.or_eq_some_iff.1 called
    · exact .inl (hosts_onServer called hosted)
    · exact .inl (hosts_onClient (fun c => PipeClient.close_remains c b.world) called hosted)
  | drop n =>
    simp only [perform?, drop] at called
    split at called
    · cases called
      exact .inl hosted
    · cases called
      obtain ⟨e, inside, there⟩ := hosted
      exact .inl ⟨e, (mem_unassign.1 inside).1, there⟩
    · cases called

theorem hosts_turn {t : Turn} (hosted : (turn (.pipes settings) t b).2.Hosts o) : b.Hosts o ∨ t.opens? = some o := by
  cases t with
  | call call =>
    simp only [turn, perform] at hosted
    cases performed : perform? (.pipes settings) call b with
    | none =>
      rw [performed] at hosted
      exact .inl hosted
    | some r =>
      rw [performed] at hosted
      exact hosts_call performed hosted
  | receiving n =>
    unfold turn at hosted
    dsimp only at hosted
    split at hosted <;> exact .inl hosted

theorem distinct_of_nodup {turns : List Turn} (nodup : (turns.filterMap Turn.opens?).Nodup)
    (fresh : ∀ o ∈ turns.filterMap Turn.opens?, ¬ b.Hosts o) : Distinct settings turns b := by
  induction turns generalizing b with
  | nil => trivial
  | cons t turns ih =>
    cases opens : t.opens? with
    | none =>
      rw [List.filterMap_cons_none opens] at nodup fresh
      refine ⟨fun o opened => by simp [opens] at opened, ih nodup fun o later hosted => ?_⟩
      obtain before | opened := hosts_turn hosted
      · exact fresh o later before
      · cases opens.symm.trans opened
    | some o =>
      rw [List.filterMap_cons_some opens] at nodup fresh
      obtain ⟨first, nodup⟩ := List.nodup_cons.1 nodup
      refine ⟨fun p opened => ?_, ih nodup fun p later hosted => ?_⟩
      · cases opens.symm.trans opened
        exact fresh o List.mem_cons_self
      · obtain before | opened := hosts_turn hosted
        · exact fresh p (List.mem_cons_of_mem _ later) before
        · cases opens.symm.trans opened
          exact first later

end Origins

/-- A call in the life of one server. Nothing but its clients' pipes stands where it looks for them. -/
def Answers (settings : PipeSettings) (name : String) (h : Host) : EndCall → Prop
  | .openServer _ => False
  | .replyBegin n origin => n = name → Vacant settings origin h
  | _ => True

section Runs

variable {settings : PipeSettings} {name : String} {home : Location} {gate : Nat} {s : PipeServer} {l : Ledger}
  {b : Bench Host PipeServer PipeClient} {h : Host}

theorem attended_perform (attends : Attends settings name home gate (Vacant settings · h) s l b) (keyed : Keyed b.clients)
    {call : EndCall} (answers : Answers settings name h call) (distinct : ∀ o ∈ (Turn.call call).opens?, ¬ b.Hosts o) :
    Stays settings name home gate (Vacant settings · h) l b call := by
  cases call with
  | openServer n => exact answers.elim
  | openClient n origin => exact attended_openClient attends keyed n (distinct origin rfl)
  | receive n => exact attended_receive attends keyed n
  | replyBegin n origin => exact attended_replyBegin attends keyed n answers
  | replySend n m => exact attended_replySend attends keyed n m
  | replyReceive n => exact attended_replyReceive attends keyed n
  | replyEnd n => exact attended_replyEnd attends keyed n
  | send n m => exact attended_send attends keyed n m
  | close n => exact attended_close attends keyed n
  | drop n => exact attended_drop attends keyed n
  | receiveFrom n client origin m => exact attended_receiveFrom attends keyed n (distinct origin rfl) m

theorem attended_turn (attends : Attends settings name home gate (Vacant settings · h) s l b) (keyed : Keyed b.clients)
    {t : Turn} (answers : ∀ call, t = .call call → Answers settings name h call)
    (distinct : ∀ o ∈ t.opens?, ¬ b.Hosts o) :
    ∃ s', Attends settings name home gate (Vacant settings · h) s' (l.ofTurn settings t b) (turn (.pipes settings) t b).2 ∧
      Keyed (turn (.pipes settings) t b).2.clients := by
  cases t with
  | call call =>
    obtain ⟨s', attends', keyed'⟩ := attended_perform attends keyed (answers call rfl) distinct
    exact ⟨s', attends', keyed'⟩
  | receiving n =>
    obtain ⟨s', attends', keyed'⟩ := attended_receiving attends keyed n
    exact ⟨s', attends', keyed'⟩

theorem attended_run (attends : Attends settings name home gate (Vacant settings · h) s l b) (keyed : Keyed b.clients)
    {turns : List Turn} (answers : ∀ call, .call call ∈ turns → Answers settings name h call)
    (distinct : Distinct settings turns b) :
    ∃ s', Attends settings name home gate (Vacant settings · h) s' (l.ofRun settings turns b)
        (run (.pipes settings) turns b).2 ∧ Keyed (run (.pipes settings) turns b).2.clients := by
  induction turns generalizing s l b with
  | nil => exact ⟨s, attends, keyed⟩
  | cons t turns ih =>
    obtain ⟨s', attends', keyed'⟩ := attended_turn attends keyed
      (fun call same => answers call (same ▸ List.mem_cons_self)) distinct.1
    exact ih attends' keyed' (fun call there => answers call (List.mem_cons_of_mem t there)) distinct.2

theorem attends_start (name : String) {world : Host} {server : PipeServer} (sound : h.Sound)
    (opened : PipeServer.openOn settings h = (.ok server, world)) :
    ∃ home gate, Attends settings name home gate (Vacant settings · world) server {}
      { world, servers := [(name, server)] } := by
  obtain ⟨home, gate, links, entered, line, serves, -, -, noReply⟩ := PipeServer.openOn_serves sound opened
  have leads : Leads settings home world := fun p l there => by
    cases entered.symm.trans there
    rfl
  exact ⟨home, gate, {
    servers := by simp
    set := serves.set
    path := serves.path
    front := .of_own line leads
    inbound := fun i held => by
      obtain ⟨x, found, node, -⟩ := line.reader i held
      exact ⟨lt_of_handle? found, fun y found' => by cases found.symm.trans found'; exact node⟩
    clients := by simp
    left := by simp
    apart := by simp
    vacant := fun _ vacant _ => vacant
    nothing := fun _ _ => ⟨rfl, rfl⟩
    talks := noReply ▸ .none }⟩

/-- What holds of a client under a name, when these messages have been sent to it and it has read those. -/
structure Answered (settings : PipeSettings) (sent read : List Message) (n : String) (c : PipeClient)
    (b : Bench Host PipeServer PipeClient) : Prop where
  both : c.reader.isSome = c.writer.isSome
  begun : ∀ c' w, PipeClient.replyBegin (c, b.world) = (.ok (), c', w) → c'.reader.isSome ∧ c'.writer.isSome
  again : c.reader.isSome → PipeClient.replyBegin (c, b.world) = (.ok (), c, b.world)
  failed : ∀ f c' w, PipeClient.replyBegin (c, b.world) = (.error f, c', w) →
    c' = c ∧ w.names = b.world.names ∧ ∀ i, w.handle? i = b.world.handle? i
  next : c.closed = false → ∃ waiting, read ++ waiting = sent ∧
    (b.perform (.pipes settings) (.replyReceive n)).1 = .message (c.given waiting)
  left : c.closed = true → (b.perform (.pipes settings) (.replyReceive n)).1 = .message (.error .noReplyChannel)

theorem Attends.answered {known : UInt32 → Prop} {n : String} {c : PipeClient}
    (attends : Attends settings name home gate known s l b) (found : b.clients.lookup n = some c) :
    Answered settings (l.sent c.origin) (l.read c.origin) n c b := by
  have received : (b.perform (.pipes settings) (.replyReceive n)).1 =
      .message (PipeClient.replyReceive (c, b.world)).1 := by
    simp only [perform, perform?, onClient, found]
    rfl
  cases closed : c.closed with
  | true =>
    have left := attends.left _ (mem_of_lookup found) closed
    dsimp only at left
    have refused : PipeClient.replyBegin (c, b.world) = (.error .closed, c, b.world) := PipeClient.replyBegin_closed closed
    exact {
      both := by rw [left.reader, left.writer]
      begun := fun c' w begun => by cases refused.symm.trans begun
      again := fun reads => by rw [left.reader] at reads; cases reads
      failed := fun f c' w failed => by
        cases refused.symm.trans failed
        exact ⟨rfl, rfl, fun _ => rfl⟩
      next := fun isOpen => by cases closed.symm.trans isOpen
      left := fun _ => by
        rw [received, PipeClient.replyReceive_unbegun left.reader] }
  | false =>
    obtain ⟨pipe, waiting, keeps, owed⟩ := attends.clients _ (mem_of_lookup found) closed
    dsimp only at keeps owed
    exact {
      both := keeps.both
      begun := fun c' w begun => by
        obtain ⟨reads, same⟩ | ⟨-, _, -, ⟨f, failed, -⟩ | ⟨r, v, opened, -⟩⟩ := keeps.replyBegin attends.front.leads
        · cases same.symm.trans begun
          exact ⟨reads, keeps.both ▸ reads⟩
        · cases failed.symm.trans begun
        · cases opened.symm.trans begun
          exact ⟨rfl, rfl⟩
      again := fun reads => by
        obtain ⟨-, same⟩ | ⟨idle, -⟩ := keeps.replyBegin attends.front.leads
        · exact same
        · rw [idle] at reads
          cases reads
      failed := fun f c' w failed => by
        obtain ⟨-, same⟩ | ⟨-, _, -, ⟨f, failed', names, handles, -⟩ | ⟨r, v, opened, -⟩⟩ :=
          keeps.replyBegin attends.front.leads
        · cases same.symm.trans failed
        · cases failed'.symm.trans failed
          exact ⟨rfl, names, handles⟩
        · cases opened.symm.trans failed
      next := fun _ => by
        obtain ⟨w, given, -⟩ := keeps.replyReceive
        exact ⟨waiting, owed, by rw [received, given]⟩
      left := fun isClosed => by cases closed.symm.trans isClosed }

/-- In every run of one server and any number of clients, no two of which are open under one origin at a time, each
client has read the messages that the server sent through in reply sessions with it, in their order, each one once, up
to those that still wait for it. An open client that receives is given the first message that waits, and waits itself
if there is none and it has begun to read; that its pipe has ended it never finds. It holds both ends of its pipe or
neither, holds both once it has begun to read, and changes nothing by beginning again or in vain. -/
theorem read_then_waiting {world : Host} {server : PipeServer} (sound : h.Sound)
    (opened : PipeServer.openOn settings h = (.ok server, world)) {turns : List Turn}
    (answers : ∀ call, .call call ∈ turns → Answers settings name world call)
    (distinct : Distinct settings turns { world, servers := [(name, server)] }) :
    Function.Injective settings.clientPath ∧ (∀ o, settings.clientPath o ≠ settings.serverPath) ∧
      let ran := (run (.pipes settings) turns { world, servers := [(name, server)] }).2
      let ledger := Ledger.ofRun settings turns { world, servers := [(name, server)] } {}
      ∀ n c, ran.clients.lookup n = some c →
        Answered settings (ledger.sent c.origin) (ledger.read c.origin) n c ran := by
  obtain ⟨home, gate, attends⟩ := attends_start name sound opened
  obtain ⟨s, attends', -⟩ := attended_run attends (by simp [Keyed]) answers distinct
  exact ⟨settings.clientPath_injective, settings.clientPath_ne_serverPath, fun n c found => attends'.answered found⟩

end Runs

section Exchanges

def exchanges : List Turn :=
  [.call (.openClient "a" 5), .call (.openClient "b" 6), .call (.replyBegin "a" 5), .call (.replyBegin "b" 6),
    .call (.replyBegin "s" 5), .call (.replySend "s" (.ofRequest 5 (.getCatalog "CD1"))), .call (.replyEnd "s"),
    .call (.replyBegin "s" 6), .call (.replySend "s" (.ofRequest 6 (.getCatalog "CD2"))), .call (.replyBegin "s" 5),
    .call (.replySend "s" (.ofRequest 5 (.getCatalog "CD3"))), .call (.replyReceive "a"), .call (.close "b")]

theorem read_then_waiting_exchanges :
    vacant.Sound ∧ ∃ server world, PipeServer.openOn { directory := "" } vacant = (.ok server, world) ∧
      (∀ call, .call call ∈ exchanges → Answers { directory := "" } "s" world call) ∧
      Distinct { directory := "" } exchanges { world, servers := [("s", server)] } ∧
      Function.Injective (PipeSettings.clientPath { directory := "" }) ∧
      (∀ o, PipeSettings.clientPath { directory := "" } o ≠ PipeSettings.serverPath { directory := "" }) ∧
      let ran := (run (.pipes { directory := "" }) exchanges { world, servers := [("s", server)] }).2
      let ledger := Ledger.ofRun { directory := "" } exchanges { world, servers := [("s", server)] } {}
      ∀ n c, ran.clients.lookup n = some c →
        Answered { directory := "" } (ledger.sent c.origin) (ledger.read c.origin) n c ran := by
  have sound : vacant.Sound := Sound.of_names (by decide) (by decide) (by decide)
  have entered : vacant.enter "" = .ok ([], maxLinks) := by
    rw [enter, pathNames_empty, descend]
    rfl
  obtain ⟨server, world, opened⟩ : ∃ server world, PipeServer.openOn { directory := "" } vacant = (.ok server, world) :=
    ⟨_, _, Prod.ext (PipeServer.openOn_free sound entered ⟨by decide, by decide, by decide⟩ (by decide)
      (by decide) (by decide)) rfl⟩
  obtain ⟨home, -, links, entered, -⟩ := PipeServer.openOn_serves sound opened
  have leads : Leads { directory := "" } home world := fun p l there => by
    cases entered.symm.trans there
    rfl
  have unclaimed : ∀ o, Vacant { directory := "" } o world := fun o => .of_place leads fun n at? => by
    obtain same | there := PipeServer.openOn_nodeOf? sound opened entered at?
    · exact absurd same (replyPlace_ne_inboundPlace home o)
    · have other : (replyPlace home o == []) = false := by simp [replyPlace]
      rw [nodeOf?, vacant, List.lookup_cons, other] at there
      cases there
  have answers : ∀ call, .call call ∈ exchanges → Answers { directory := "" } "s" world call := by
    intro call there
    cases call with
    | openServer n => simp [exchanges] at there
    | replyBegin n o => exact fun _ => unclaimed o
    | _ => trivial
  have distinct : Distinct { directory := "" } exchanges { world, servers := [("s", server)] } :=
    distinct_of_nodup (by decide) (by simp [Hosts])
  exact ⟨sound, server, world, opened, answers, distinct, read_then_waiting sound opened answers distinct⟩

end Exchanges

end Bench

end DiscCatalog
