import DiscCatalog.Proofs.Channel.ReplyPipe
import DiscCatalog.Proofs.Channel.Requests

namespace DiscCatalog

open Host

/-- What was sent to each client that is there and what it has read, and with whom the server is in a reply session. -/
structure Ledger where
  session : Option UInt32 := none
  sent : UInt32 → List Message := fun _ => []
  read : UInt32 → List Message := fun _ => []

namespace Bench

def Hosts (b : Bench Host PipeServer PipeClient) (origin : UInt32) : Prop :=
  ∃ e ∈ b.clients, e.2.origin = origin ∧ e.2.closed = false

instance (b : Bench Host PipeServer PipeClient) (origin : UInt32) : Decidable (b.Hosts origin) :=
  inferInstanceAs (Decidable (∃ e ∈ b.clients, e.2.origin = origin ∧ e.2.closed = false))

end Bench

namespace Ledger

variable {b b' : Bench Host PipeServer PipeClient} {l : Ledger}

def send (m : Message) (l : Ledger) : Ledger :=
  match l.session with
  | some o => { l with sent := Function.update l.sent o (l.sent o ++ [m]) }
  | none => l

theorem session_send (m : Message) (l : Ledger) : (l.send m).session = l.session := by
  unfold send
  split
  · rfl
  · rfl

def receive (o : UInt32) (m : Message) (l : Ledger) : Ledger :=
  { l with read := Function.update l.read o (l.read o ++ [m]) }

def ofCall (b : Bench Host PipeServer PipeClient) (l : Ledger) : EndCall → EndAnswer → Ledger
  | .replyBegin name origin, .done (.ok ()) =>
    if (b.servers.lookup name).isSome then { l with session := some origin } else l
  | .replyEnd name, _ => if (b.servers.lookup name).isSome then { l with session := none } else l
  | .replySend _ m, .done (.ok ()) => l.send m
  | .replyReceive name, .message (.ok m) =>
    match b.clients.lookup name with
    | some c => l.receive c.origin m
    | none => l
  | _, _ => l

theorem ofCall_replyBegin {n : String} (gone : b.servers.lookup n = none) (origin : UInt32) (answer : EndAnswer) :
    l.ofCall b (.replyBegin n origin) answer = l := by
  cases answer with
  | done outcome =>
    cases outcome with
    | ok _ => simp only [ofCall, gone, Option.isSome_none, Bool.false_eq_true, if_false]
    | error f => rfl
  | _ => rfl

theorem ofCall_replyEnd {n : String} (answer : EndAnswer) :
    l.ofCall b (.replyEnd n) answer = if (b.servers.lookup n).isSome then { l with session := none } else l := by
  cases answer <;> rfl

def among (b : Bench Host PipeServer PipeClient) (l : Ledger) : Ledger where
  session := l.session
  sent o := if b.Hosts o then l.sent o else []
  read o := if b.Hosts o then l.read o else []

def ofTurn (settings : PipeSettings) (t : Bench.Turn) (b : Bench Host PipeServer PipeClient) (l : Ledger) : Ledger :=
  among (Bench.turn (.pipes settings) t b).2 (match t with
    | .call call => l.ofCall b call (b.perform (.pipes settings) call).1
    | .receiving _ => l)

def ofRun (settings : PipeSettings) : List Bench.Turn → Bench Host PipeServer PipeClient → Ledger → Ledger
  | [], _, l => l
  | t :: turns, b, l => ofRun settings turns (Bench.turn (.pipes settings) t b).2 (l.ofTurn settings t b)

theorem among_among (fewer : ∀ o, b'.Hosts o → b.Hosts o) (l : Ledger) : (l.among b).among b' = l.among b' := by
  have kept : ∀ of : UInt32 → List Message,
      (fun o => if b'.Hosts o then if b.Hosts o then of o else [] else []) = fun o => if b'.Hosts o then of o else [] := by
    intro of
    funext o
    by_cases hosted : b'.Hosts o
    · rw [if_pos (fewer o hosted)]
    · rw [if_neg hosted, if_neg hosted]
  exact congrArg₂ (Ledger.mk l.session) (kept l.sent) (kept l.read)

theorem among_eq (none : ∀ o, ¬ b.Hosts o → l.sent o = [] ∧ l.read o = []) : l.among b = l := by
  have kept : ∀ of : UInt32 → List Message, (∀ o, ¬ b.Hosts o → of o = []) → (fun o => if b.Hosts o then of o else []) = of := by
    intro of none
    funext o
    split
    · rfl
    · next gone => exact (none o gone).symm
  rw [among, kept l.sent fun o gone => (none o gone).1, kept l.read fun o gone => (none o gone).2]

end Ledger

namespace Bench

def Peer (home : Location) (session : Option UInt32) (clients : List (String × PipeClient)) (n : Nat) (h : Host) : Prop :=
  (∃ e ∈ clients, e.2.closed = false ∧ session = some e.2.origin ∧ h.nodeOf? (replyPlace home e.2.origin) = some n) ∨
    Unread n h

structure Talks (home : Location) (gate : Nat) (session : Option UInt32) (outbound : Option Nat)
    (clients : List (String × PipeClient)) (h : Host) : Prop where
  took : ∀ i ∈ outbound, h.Took i fun node access => access = .write ∧ node ≠ gate
  alone : ∀ i ∈ outbound, ∀ e ∈ clients, e.2.writer ≠ some i
  peer : ∀ i ∈ outbound, ∀ x, h.handle? i = some x → Peer home session clients x.node h

namespace Talks

variable {home : Location} {gate : Nat} {session : Option UInt32} {outbound : Option Nat}
  {clients clients' : List (String × PipeClient)} {h h' : Host}

theorem none : Talks home gate session none clients h :=
  ⟨fun _ held => (by cases held), fun _ held => (by cases held), fun _ held => (by cases held)⟩

theorem later (talks : Talks home gate session outbound clients h) (later : Later h h')
    (alone : ∀ i ∈ outbound, i < h.handles.length → ∀ e ∈ clients', e ∈ clients ∨ e.2.writer ≠ some i)
    (peer : ∀ i x, h.handle? i = some x → x.node ≠ gate → Peer home session clients x.node h →
      Peer home session clients' x.node h') : Talks home gate session outbound clients' h' where
  took i held := (talks.took i held).later later
  alone i held e inside := (alone i held (talks.took i held).1 e inside).elim (talks.alone i held e) id
  peer i held x found := by
    obtain ⟨y, found, node, -⟩ := later.held (talks.took i held).1 found
    rw [← node]
    exact peer i y found ((talks.took i held).2 y found).2 (talks.peer i held y found)

end Talks

structure Attends (settings : PipeSettings) (name : String) (home : Location) (gate : Nat) (known : UInt32 → Prop)
    (s : PipeServer) (l : Ledger) (b : Bench Host PipeServer PipeClient) : Prop where
  servers : ∀ e ∈ b.servers, e = (name, s)
  set : s.settings = settings
  path : s.path = settings.serverPath
  front : Front settings home gate b.world
  inbound : On gate s.inbound b.world
  clients : ∀ e ∈ b.clients, e.2.closed = false → ∃ pipe waiting,
    e.2.Keeps settings home gate pipe waiting b.world ∧ l.read e.2.origin ++ waiting = l.sent e.2.origin
  left : ∀ e ∈ b.clients, e.2.closed = true → e.2.HoldsNothing
  apart : ∀ e ∈ b.clients, ∀ e' ∈ b.clients, e.2.closed = false → e'.2.closed = false → e.2.origin = e'.2.origin → e = e'
  vacant : ∀ o, known o → ¬ b.Hosts o → Vacant settings o b.world
  nothing : ∀ o, ¬ b.Hosts o → l.sent o = [] ∧ l.read o = []
  talks : Talks home gate l.session s.outbound b.clients b.world

namespace Attends

variable {settings : PipeSettings} {name : String} {home : Location} {gate pipe : Nat} {known : UInt32 → Prop}
  {s : PipeServer} {l l' : Ledger} {b : Bench Host PipeServer PipeClient} {w : Host}
  {old new : String × PipeClient} {clients : List (String × PipeClient)} {waiting left : List Message}
  (attends : Attends settings name home gate known s l b)

include attends

theorem origin_ne {e e' : String × PipeClient} (there : e ∈ b.clients) (there' : e' ∈ b.clients) (isOpen : e.2.closed = false)
    (isOpen' : e'.2.closed = false) (other : e ≠ e') : replyPlace home e'.2.origin ≠ replyPlace home e.2.origin :=
  fun same => other (attends.apart e there e' there' isOpen isOpen' (replyPlace_injective home same).symm)

/-- What is done under one origin, where a client comes, acts or leaves, does nothing to the clients under others. -/
theorem under {o : UInt32} (confined : Confined gate (replyPlace home o) b.world w) (session : l'.session = l.session)
    (others : ∀ p, p ≠ o → l'.sent p = l.sent p ∧ l'.read p = l.read p)
    (into : ∀ e ∈ clients, e.2.closed = false → e.2.origin ≠ o → e ∈ b.clients)
    (cover : ∀ e ∈ b.clients, e.2.closed = false → e.2.origin ≠ o → e ∈ clients)
    (left : ∀ e ∈ clients, e.2.closed = true → e.2.HoldsNothing)
    (here : ∀ e ∈ clients, e.2.closed = false → e.2.origin = o →
      ∃ pipe waiting, e.2.Keeps settings home gate pipe waiting w ∧ l'.read o ++ waiting = l'.sent o)
    (sole : ∀ e ∈ clients, ∀ e' ∈ clients, e.2.closed = false → e'.2.closed = false → e.2.origin = o → e'.2.origin = o →
      e = e')
    (gone : ¬ Hosts { b with world := w, clients } o → Vacant settings o w ∧ l'.sent o = [] ∧ l'.read o = [])
    (writers : ∀ e ∈ clients, e ∈ b.clients ∨ ∀ i ∈ s.outbound, i < b.world.handles.length → e.2.writer ≠ some i)
    (peer : ∀ i x, b.world.handle? i = some x → x.node ≠ gate → b.world.nodeOf? (replyPlace home o) = some x.node →
      Peer home l.session b.clients x.node b.world → Peer home l.session clients x.node w) :
    Attends settings name home gate known s l' { b with world := w, clients } := by
  have away {p : UInt32} (other : p ≠ o) : replyPlace home o ≠ replyPlace home p :=
    fun same => other (replyPlace_injective home same).symm
  have before {p : UInt32} (other : p ≠ o) (nobody : ¬ Hosts { b with world := w, clients } p) : ¬ b.Hosts p := by
    rintro ⟨e, inb, rfl, isOpen⟩
    exact nobody ⟨e, cover e inb isOpen other, rfl, isOpen⟩
  exact {
    servers := attends.servers
    set := attends.set
    path := attends.path
    front := attends.front.confined (replyPlace_ne_inboundPlace _ _) confined
    inbound := attends.inbound.later confined.toLater
    clients := fun e inc isOpen => by
      by_cases own : e.2.origin = o
      · subst own
        exact here e inc isOpen rfl
      · obtain ⟨pipe, waiting, keeps, owed⟩ := attends.clients e (into e inc isOpen own) isOpen
        refine ⟨pipe, waiting, keeps.confined confined (away own), ?_⟩
        rw [(others _ own).1, (others _ own).2]
        exact owed
    left := left
    apart := fun e inc e' inc' isOpen isOpen' same => by
      by_cases own : e.2.origin = o
      · exact sole e inc e' inc' isOpen isOpen' own (same.symm.trans own)
      · exact attends.apart e (into e inc isOpen own) e' (into e' inc' isOpen' (same ▸ own)) isOpen isOpen' same
    vacant := fun p knows nobody => by
      by_cases own : p = o
      · subst own
        exact (gone nobody).1
      · exact attends.front.vacant confined (away own) (attends.vacant p knows (before own nobody))
    nothing := fun p nobody => by
      by_cases own : p = o
      · subst own
        exact (gone nobody).2
      · rw [(others p own).1, (others p own).2]
        exact attends.nothing p (before own nobody)
    talks := by
      rw [session]
      refine attends.talks.later confined.toLater (fun i held old e inc => ?_) fun i x found other was => ?_
      · exact (writers e inc).imp_right fun apart => apart i held old
      by_cases at? : b.world.nodeOf? (replyPlace home o) = some x.node
      · exact peer i x found other at? was
      obtain ⟨e, inb, isOpen, session, there⟩ | unread := was
      · have own : e.2.origin ≠ o := fun own => at? (own ▸ there)
        exact .inl ⟨e, cover e inb isOpen own, isOpen, session, by rw [confined.name _ (away own).symm]; exact there⟩
      · exact .inr (unread.spares (confined.others _ unread.lt_nodes fun within => within.elim other at?)) }

theorem client (there : old ∈ b.clients) (before : old.2.Keeps settings home gate pipe left b.world)
    (same : new.2.origin = old.2.origin) (confined : Confined gate (replyPlace home old.2.origin) b.world w)
    (keeps : new.2.Keeps settings home gate pipe waiting w)
    (owed : l'.read old.2.origin ++ waiting = l'.sent old.2.origin) (session : l'.session = l.session)
    (others : ∀ o, o ≠ old.2.origin → l'.sent o = l.sent o ∧ l'.read o = l.read o)
    (writer : new.2.writer = old.2.writer ∨ ∀ i ∈ new.2.writer, b.world.handles.length ≤ i)
    (inside : new ∈ clients) (into : ∀ e ∈ clients, e = new ∨ e ∈ b.clients ∧ e ≠ old)
    (cover : ∀ e ∈ b.clients, e = old ∨ e ∈ clients) :
    Attends settings name home gate known s l' { b with world := w, clients } := by
  have only : ∀ e ∈ clients, e.2.closed = false → e.2.origin = old.2.origin → e = new := by
    intro e inc isOpen origin
    obtain own | ⟨inb, other⟩ := into e inc
    · exact own
    · exact absurd (attends.apart e inb old there isOpen before.isOpen origin) other
  refine attends.under confined session others (fun e inc _ away => ?_) (fun e inb _ away => ?_) (fun e inc closed => ?_)
    (fun e inc isOpen origin => ?_)
    (fun e inc e' inc' isOpen isOpen' own own' => (only e inc isOpen own).trans (only e' inc' isOpen' own').symm)
    (fun nobody => absurd ⟨new, inside, same, keeps.isOpen⟩ nobody) (fun e inc => ?_) fun i x found _ at? peer => ?_
  · obtain rfl | ⟨inb, -⟩ := into e inc
    · exact absurd same away
    · exact inb
  · exact (cover e inb).resolve_left fun own => away (congrArg (·.2.origin) own)
  · obtain rfl | ⟨inb, -⟩ := into e inc
    · cases keeps.isOpen.symm.trans closed
    · exact attends.left e inb closed
  · obtain rfl := only e inc isOpen origin
    exact ⟨pipe, waiting, keeps, owed⟩
  · obtain rfl | ⟨inb, -⟩ := into e inc
    · obtain same | fresh := writer
      · exact .inr fun i held _ => same ▸ attends.talks.alone i held old there
      · exact .inr fun i _ lt writes => Nat.not_lt.2 (fresh i writes) lt
    · exact .inl inb
  · cases before.line.name.symm.trans at?
    obtain ⟨e, -, -, session, there⟩ | unread := peer
    · have origin := replyPlace_injective home (attends.front.sound.apart there at?)
      exact .inl ⟨new, inside, keeps.isOpen, by rw [session, origin, same], keeps.line.name⟩
    · exact absurd unread (before.not_unread found rfl)

theorem client_left (there : old ∈ b.clients) (before : old.2.Keeps settings home gate pipe left b.world)
    (confined : Confined gate (replyPlace home old.2.origin) b.world w) (unread : Unread pipe w)
    (vacant : Vacant settings old.2.origin w)
    (into : ∀ e ∈ clients, e ∈ b.clients ∧ e ≠ old ∨ e.2.closed = true ∧ e.2.HoldsNothing)
    (cover : ∀ e ∈ b.clients, e = old ∨ e ∈ clients) :
    Attends settings name home gate known s (l.among { b with world := w, clients })
      { b with world := w, clients } := by
  have stays : ∀ e ∈ clients, e.2.closed = false → e ∈ b.clients ∧ e.2.origin ≠ old.2.origin := by
    intro e inc isOpen
    obtain ⟨inb, other⟩ | ⟨closed, -⟩ := into e inc
    · exact ⟨inb, fun same => other (attends.apart e inb old there isOpen before.isOpen same)⟩
    · cases isOpen.symm.trans closed
  refine attends.under confined rfl (fun o other => ?_) (fun e inc isOpen _ => (stays e inc isOpen).1)
    (fun e inb _ away => ?_) (fun e inc closed => ?_)
    (fun e inc isOpen own => absurd own (stays e inc isOpen).2)
    (fun e inc _ _ isOpen _ own _ => absurd own (stays e inc isOpen).2)
    (fun nobody => ⟨vacant, if_neg nobody, if_neg nobody⟩) (fun e inc => ?_) fun i x found _ at? _ => ?_
  · by_cases hosted : Hosts { b with world := w, clients } o
    · exact ⟨if_pos hosted, if_pos hosted⟩
    · have nobody : ¬ b.Hosts o := by
        rintro ⟨e, inb, rfl, isOpen⟩
        obtain rfl | inc := cover e inb
        · exact other rfl
        · exact hosted ⟨e, inc, rfl, isOpen⟩
      obtain ⟨sent, read⟩ := attends.nothing o nobody
      exact ⟨(if_neg hosted).trans sent.symm, (if_neg hosted).trans read.symm⟩
  · exact (cover e inb).resolve_left fun own => away (congrArg (·.2.origin) own)
  · obtain ⟨inb, -⟩ | ⟨-, left⟩ := into e inc
    · exact attends.left e inb closed
    · exact left
  · obtain ⟨inb, -⟩ | ⟨-, nothing⟩ := into e inc
    · exact .inl inb
    · exact .inr fun i _ _ => by rw [nothing.writer]; simp
  · cases before.line.name.symm.trans at?
    exact .inr unread

theorem client_came {origin : UInt32} {c : PipeClient} (n : String) (gone : ¬ b.Hosts origin)
    (came : PipeClient.Came settings home gate origin b.world (.ok c, w)) :
    Attends settings name home gate known s l { b with world := w, clients := (n, c) :: b.clients } := by
  obtain ⟨rfl, unwritten, pipe, keeps⟩ := came.opened c rfl
  have only : ∀ e ∈ (n, c) :: b.clients, e.2.closed = false → e.2.origin = c.origin → e = (n, c) := by
    intro e inc isOpen origin
    exact (List.mem_cons.1 inc).resolve_right fun inb => gone ⟨e, inb, origin, isOpen⟩
  refine attends.under came.confined rfl (fun _ _ => ⟨rfl, rfl⟩) (fun e inc _ away => ?_)
    (fun e inb _ _ => List.mem_cons_of_mem _ inb) (fun e inc closed => ?_) (fun e inc isOpen origin => ?_)
    (fun e inc e' inc' isOpen isOpen' own own' => (only e inc isOpen own).trans (only e' inc' isOpen' own').symm)
    (fun nobody => absurd ⟨(n, c), List.mem_cons_self, rfl, keeps.isOpen⟩ nobody) (fun e inc => ?_)
    fun i x found other at? peer => ?_
  · exact (List.mem_cons.1 inc).resolve_left fun own => away (congrArg (·.2.origin) own)
  · obtain rfl | inb := List.mem_cons.1 inc
    · cases keeps.isOpen.symm.trans closed
    · exact attends.left e inb closed
  · obtain rfl := only e inc isOpen origin
    refine ⟨pipe, [], keeps, ?_⟩
    rw [(attends.nothing _ gone).1, (attends.nothing _ gone).2]
    rfl
  · obtain rfl | inb := List.mem_cons.1 inc
    · exact .inr fun i _ _ => by rw [unwritten]; simp
    · exact .inl inb
  · obtain ⟨e, inb, isOpen, -, there⟩ | unread := peer
    · have origin := replyPlace_injective home (attends.front.sound.apart there at?)
      exact absurd ⟨e, inb, origin, isOpen⟩ gone
    · exact .inr (came.unread _ other unread)

/-- The server did something that leaves the clients' pipes to them. -/
theorem served {s' : PipeServer} {session : Option UInt32} {servers : List (String × PipeServer)}
    (set : s'.settings = s.settings) (path : s'.path = s.path) (front : Front settings home gate w)
    (inbound : On gate s'.inbound w)
    (keeps : ∀ e ∈ b.clients, ∀ pipe waiting, e.2.Keeps settings home gate pipe waiting b.world →
      e.2.Keeps settings home gate pipe waiting w)
    (vacant : ∀ o, Vacant settings o b.world → Vacant settings o w)
    (talks : Talks home gate session s'.outbound b.clients w) (staff : ∀ e ∈ servers, e = (name, s')) :
    Attends settings name home gate known s' { l with session } { b with world := w, servers } where
  servers := staff
  set := set.trans attends.set
  path := path.trans attends.path
  front := front
  inbound := inbound
  clients e inb isOpen := by
    obtain ⟨pipe, waiting, before, owed⟩ := attends.clients e inb isOpen
    exact ⟨pipe, waiting, keeps e inb pipe waiting before, owed⟩
  left := attends.left
  apart := attends.apart
  vacant o knows gone := vacant o (attends.vacant o knows gone)
  nothing := attends.nothing
  talks := talks

theorem inward {s' : PipeServer} {servers : List (String × PipeServer)}
    (inward : PipeServer.Inward gate s b.world (s', w)) (staff : ∀ e ∈ servers, e = (name, s')) :
    Attends settings name home gate known s' l { b with world := w, servers } := by
  obtain ⟨aloof, inbound, same⟩ := inward
  dsimp only at aloof inbound same
  refine attends.served (by rw [same]) (by rw [same]) (attends.front.aloof aloof) inbound
    (fun e _ pipe waiting keeps => keeps.aloof aloof)
    (fun o => attends.front.vacant (aloof []) (by simp)) ?_ staff
  have outbound : s'.outbound = s.outbound := by rw [same]
  rw [outbound]
  refine attends.talks.later aloof.later (fun _ _ _ e inb => .inl inb) fun i x found other peer => ?_
  obtain ⟨e, inb, isOpen, session, at?⟩ | unread := peer
  · exact .inl ⟨e, inb, isOpen, session, by rw [aloof.name]; exact at?⟩
  · exact .inr (unread.spares (aloof.others attends.front.sound unread.lt_nodes other))

theorem released {i : Nat} (writes : ∀ x, b.world.handle? i = some x → x.access = .write)
    (aside : ∀ e ∈ b.clients, e.2.writer ≠ some i) :
    Attends settings name home gate known s l { b with world := b.world.close i } := by
  have later := later_close attends.front.sound i
  refine attends.served rfl rfl (attends.front.close i) (attends.inbound.later later)
    (fun e inb pipe waiting keeps => keeps.close writes (aside e inb))
    (fun o vacant => vacant.close attends.front.leads attends.front.sound i) ?_ attends.servers
  refine attends.talks.later later (fun _ _ _ e inb => .inl inb) fun j x found other peer => ?_
  obtain ⟨e, inb, isOpen, session, at?⟩ | unread := peer
  · exact .inl ⟨e, inb, isOpen, session, by rw [nodeOf?, names_close]; exact at?⟩
  · exact .inr (unread.close i)

theorem silent (s' : PipeServer) {servers : List (String × PipeServer)} (set : s'.settings = s.settings)
    (path : s'.path = s.path) (inbound : On gate s'.inbound b.world) (none : s'.outbound = none)
    (session : Option UInt32) (staff : ∀ e ∈ servers, e = (name, s')) :
    Attends settings name home gate known s' { l with session } { b with servers } :=
  attends.served set path attends.front inbound (fun _ _ _ _ keeps => keeps) (fun _ vacant => vacant)
    (none ▸ .none) staff

omit attends in
theorem writer_lt (attends : Attends settings name home gate known s l b) {e : String × PipeClient} {i : Nat}
    (inb : e ∈ b.clients) (writes : e.2.writer = some i) : i < b.world.handles.length := by
  cases closed : e.2.closed with
  | true => cases (attends.left e inb closed).writer.symm.trans writes
  | false =>
    obtain ⟨pipe, waiting, keeps, -⟩ := attends.clients e inb closed
    obtain ⟨x, found, -⟩ := keeps.writer i writes
    exact lt_of_handle? found

theorem begun {j : Nat} {servers : List (String × PipeServer)} (there : old ∈ b.clients)
    (keeps : old.2.Keeps settings home gate pipe waiting b.world) (reads : old.2.reader = some j)
    (staff : ∀ e ∈ servers, e = (name, { s with outbound := some b.world.handles.length })) :
    Attends settings name home gate known { s with outbound := some b.world.handles.length }
      { l with session := some old.2.origin }
      { b with world := b.world.adding (some (PipeClient.writing pipe)), servers } := by
  have confined := keeps.confined_adding (x := PipeClient.writing pipe) rfl
  refine attends.served rfl rfl (attends.front.confined (replyPlace_ne_inboundPlace _ _) confined)
    (attends.inbound.later confined.toLater) (fun e inb pipe' waiting' keeps' => ?_) (fun o vacant => ?_) ?_ staff
  · by_cases own : e = old
    · subst own
      cases keeps.line.name.symm.trans keeps'.line.name
      exact keeps'.adding_writer reads
    · exact keeps'.confined confined (attends.origin_ne inb there keeps'.isOpen keeps.isOpen own)
  · exact vacant.later attends.front.leads confined.toLater fun n at? => ⟨at?, fun unread => unread.adding fun _ => rfl⟩
  · refine ⟨?_, ?_, ?_⟩
    · rintro i ⟨⟩
      exact took_adding ⟨rfl, keeps.other⟩
    · rintro i ⟨⟩ e inb writes
      exact Nat.lt_irrefl _ (attends.writer_lt inb writes)
    · rintro i ⟨⟩ x found
      rw [handle?_adding] at found
      cases found
      exact .inl ⟨old, there, keeps.isOpen, rfl, keeps.line.name⟩

theorem replyBegin {origin : UInt32} (knows : known origin) :
    (∃ f, PipeServer.replyBegin origin (s, b.world) = (.error f, s, b.world)) ∨
      ∃ s' w, PipeServer.replyBegin origin (s, b.world) = (.ok (), s', w) ∧ ∀ servers, (∀ e ∈ servers, e = (name, s')) →
        Attends settings name home gate known s' { l with session := some origin } { b with world := w, servers } := by
  have set := attends.set
  subst set
  cases shut : s.closed with
  | true => exact .inl ⟨_, PipeServer.replyBegin_closed shut⟩
  | false =>
    by_cases hosted : b.Hosts origin
    · obtain ⟨e, inb, rfl, isOpen⟩ := hosted
      obtain ⟨pipe, waiting, keeps, -⟩ := attends.clients e inb isOpen
      have opens : (∃ f, b.world.openPath (s.settings.clientPath e.2.origin) .write true = (.error f, b.world)) ∨
          b.world.openPath (s.settings.clientPath e.2.origin) .write true =
            (.ok b.world.handles.length, b.world.adding (some (PipeClient.writing pipe))) ∧
          (Access.write = .write → b.world.hasReader pipe = true) :=
        keeps.line.pipeAt.openPath_joinPath (PipeSettings.plainName_clientName _) attends.front.leads .write true
      obtain ⟨f, failed⟩ | ⟨opened, reads⟩ := opens
      · exact .inl ⟨_, PipeServer.replyBegin_failed shut failed⟩
      obtain ⟨j, reads⟩ := Option.isSome_iff_exists.1 (keeps.line.hasReader_iff.1 (reads rfl))
      refine .inr ⟨_, _, PipeServer.replyBegin_opened shut opened, fun servers staff => ?_⟩
      have begun := attends.begun inb keeps reads staff
      cases held : s.outbound with
      | none => exact begun
      | some i =>
        have still := (attends.talks.took i held).later (later_adding (x := PipeClient.writing pipe) attends.front.sound keeps.line.lt_nodes)
        exact begun.released (fun x found => (still.2 x found).1) (attends.talks.alone i held)
    · obtain ⟨f, failed⟩ := (attends.vacant origin knows hosted).openPath_write attends.front.leads
      exact .inl ⟨_, PipeServer.replyBegin_failed shut failed⟩

/-- What the server sends goes to the client of its reply session, if it goes through. -/
theorem replySend (m : Message) :
    (∃ f, PipeServer.replySend m (s, b.world) = (.error f, s, b.world)) ∨
      ∃ w, PipeServer.replySend m (s, b.world) = (.ok (), s, w) ∧
        Attends settings name home gate known s (l.send m) { b with world := w } := by
  cases held : s.outbound with
  | none => exact .inl ⟨_, PipeServer.replySend_unbegun held⟩
  | some i =>
    cases misfit : m.misfit? with
    | some f =>
      have refused : m.encode = .error f := by rw [Message.encode_eq, misfit]
      exact .inl ⟨_, PipeServer.replySend_misfit held refused⟩
    | none =>
      have encodes := Message.misfit?_eq_none_iff.1 misfit
      rw [PipeServer.replySend_written held (Message.encode_of_encodes encodes)]
      cases found : b.world.handle? i with
      | none =>
        have gone : b.world.write i m.frame = (.error ⟨9⟩, b.world) := by rw [Host.write, found]
        rw [writeFrame, gone]
        exact .inl ⟨_, rfl⟩
      | some x =>
        obtain ⟨e, inb, isOpen, session, at?⟩ | unread := attends.talks.peer i held x found
        · obtain ⟨pipe, waiting, keeps, owed⟩ := attends.clients e inb isOpen
          cases keeps.line.name.symm.trans at?
          obtain ⟨f, failed⟩ | ⟨b', wrote, line⟩ := keeps.line.write found rfl encodes
          · rw [writeFrame, failed]
            exact .inl ⟨_, rfl⟩
          · rw [writeFrame, wrote]
            refine .inr ⟨_, rfl, attends.client inb keeps rfl
              (confined_setContent attends.front.sound (by simp) (by simp) keeps.within) (keeps.setContent line) ?_
              (l.session_send m) (fun o other => ?_) (.inl rfl) inb (fun e' inb' => ?_) fun e' inb' => .inr inb'⟩
            · simp [Ledger.send, session, ← owed]
            · simp [Ledger.send, session, other]
            · by_cases own : e' = e
              · exact .inl own
              · exact .inr ⟨inb', own⟩
        · rw [writeFrame, unread.write found]
          exact .inl ⟨_, rfl⟩

theorem letGo : Attends settings name home gate known s l { b with world := closeHeld s.outbound b.world } := by
  cases held : s.outbound with
  | none => exact attends
  | some i => exact attends.released (fun x found => ((attends.talks.took i held).2 x found).1) (attends.talks.alone i held)

theorem replyEnd {servers : List (String × PipeServer)} (session : Option UInt32)
    (staff : ∀ e ∈ servers, e = (name, (PipeServer.replyEnd (s, b.world)).1)) :
    Attends settings name home gate known (PipeServer.replyEnd (s, b.world)).1 { l with session }
      { b with world := (PipeServer.replyEnd (s, b.world)).2, servers } :=
  attends.letGo.silent { s with outbound := none } rfl rfl attends.letGo.inbound rfl session staff

theorem close {servers : List (String × PipeServer)}
    (staff : ∀ e ∈ servers, e = (name, (PipeServer.close (s, b.world)).1)) :
    Attends settings name home gate known (PipeServer.close (s, b.world)).1 l
      { b with world := (PipeServer.close (s, b.world)).2, servers } := by
  cases shut : s.closed with
  | true =>
    rw [PipeServer.close_closed shut] at staff ⊢
    exact { attends with servers := staff }
  | false =>
    rw [PipeServer.close_open shut] at staff ⊢
    have leaving : PipeServer.Inward gate s b.world (s, closeHeld s.inbound b.world) :=
      ⟨fun own => attends.inbound.closeHeld attends.front.sound (.inl rfl),
        attends.inbound.later (later_closeHeld attends.front.sound _), rfl⟩
    have gone := (attends.inward leaving attends.servers).letGo
    have path := attends.path
    generalize closeHeld s.outbound (closeHeld s.inbound b.world) = w at *
    have confined : Confined gate (inboundPlace home) w (w.unlink s.path).2 :=
      confined_unlink gone.front.sound fun place walked => gone.front.walk_serverPath (path ▸ walked)
    exact gone.served rfl rfl (gone.front.unlink _) .none
      (fun e _ pipe waiting keeps => keeps.confined confined (replyPlace_ne_inboundPlace _ _).symm)
      (fun o => gone.front.vacant confined (replyPlace_ne_inboundPlace _ _).symm) .none staff

theorem sifted (into : ∀ e ∈ clients, e ∈ b.clients) (cover : ∀ e ∈ b.clients, e.2.closed = false → e ∈ clients) :
    Attends settings name home gate known s l { b with clients } := by
  have hosts : ∀ o, Hosts { b with clients } o ↔ b.Hosts o := fun o =>
    ⟨fun ⟨e, inc, origin, isOpen⟩ => ⟨e, into e inc, origin, isOpen⟩,
      fun ⟨e, inb, origin, isOpen⟩ => ⟨e, cover e inb isOpen, origin, isOpen⟩⟩
  exact { attends with
    clients := fun e inc => attends.clients e (into e inc)
    left := fun e inc => attends.left e (into e inc)
    apart := fun e inc e' inc' => attends.apart e (into e inc) e' (into e' inc')
    vacant := fun o knows gone => attends.vacant o knows fun hosted => gone ((hosts o).2 hosted)
    nothing := fun o gone => attends.nothing o fun hosted => gone ((hosts o).2 hosted)
    talks := attends.talks.later (.refl attends.front.sound) (fun _ _ _ e inc => .inl (into e inc))
      fun _ _ _ _ peer => peer.imp_left fun ⟨e, inb, isOpen, rest⟩ => ⟨e, cover e inb isOpen, isOpen, rest⟩ }

theorem client_failed {origin : UInt32} {f : ChannelFault} (gone : ¬ b.Hosts origin)
    (came : PipeClient.Came settings home gate origin b.world (.error f, w)) :
    Attends settings name home gate known s l { b with world := w } := by
  have away : ∀ {o}, b.Hosts o → replyPlace home origin ≠ replyPlace home o := by
    intro o hosted same
    exact gone (replyPlace_injective home same ▸ hosted)
  exact {
    servers := attends.servers
    set := attends.set
    path := attends.path
    front := attends.front.confined (replyPlace_ne_inboundPlace _ _) came.confined
    inbound := attends.inbound.later came.confined.toLater
    clients := fun e inb isOpen => by
      obtain ⟨pipe, waiting, keeps, owed⟩ := attends.clients e inb isOpen
      exact ⟨pipe, waiting, keeps.confined came.confined (away ⟨e, inb, rfl, isOpen⟩), owed⟩
    left := attends.left
    apart := attends.apart
    vacant := fun o knows empty => by
      by_cases own : o = origin
      · subst own
        exact came.failed f rfl (attends.vacant o knows empty)
      · exact attends.front.vacant came.confined (fun same => own (replyPlace_injective home same).symm)
          (attends.vacant o knows empty)
    nothing := attends.nothing
    talks := by
      refine attends.talks.later came.confined.toLater (fun _ _ _ e inb => .inl inb) fun i x found other peer => ?_
      obtain ⟨e, inb, isOpen, session, at?⟩ | unread := peer
      · refine .inl ⟨e, inb, isOpen, session, ?_⟩
        rw [came.confined.name _ (away ⟨e, inb, rfl, isOpen⟩).symm]
        exact at?
      · exact .inr (came.unread _ other unread) }

end Attends

end Bench

end DiscCatalog
