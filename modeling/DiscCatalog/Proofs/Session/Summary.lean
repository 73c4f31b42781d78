import DiscCatalog.Proofs.Session.Serving
import DiscCatalog.Proofs.Session.Steps

namespace DiscCatalog

section Entries

variable {α β : Type} {name : String} {a : α} {l : List (String × α)}

theorem lookup_map (f : α → β) (name : String) (l : List (String × α)) :
    (l.map (Prod.map id f)).lookup name = (l.lookup name).map f := by
  induction l with
  | nil => rfl
  | cons e l ih =>
    obtain ⟨k, b⟩ := e
    rw [List.map_cons, Prod.map_apply, id_eq, List.lookup_cons, List.lookup_cons, ih]
    cases name == k <;> rfl

theorem unassign_map (f : α → β) (name : String) (l : List (String × α)) :
    unassign name (l.map (Prod.map id f)) = (unassign name l).map (Prod.map id f) := List.filter_map

theorem unassign_of_lookup (absent : l.lookup name = none) : unassign name l = l := by
  refine List.filter_eq_self.2 fun e there => ?_
  have other : name ≠ e.1 := by simpa using List.lookup_eq_none_iff.1 absent e there
  exact decide_eq_true other.symm

theorem names_unassign (names : (l.map Prod.fst).Nodup) : ((unassign name l).map Prod.fst).Nodup :=
  names.sublist (List.filter_sublist.map _)

theorem names_assign (names : (l.map Prod.fst).Nodup) (a : α) : ((assign name a l).map Prod.fst).Nodup := by
  refine List.nodup_cons.2 ⟨fun inside => ?_, names_unassign names⟩
  obtain ⟨e, there, same⟩ := List.mem_map.1 inside
  exact of_decide_eq_true (List.mem_filter.1 there).2 same

/-- Where no name stands twice, an entry is itself and the others. -/
theorem perm_of_lookup (names : (l.map Prod.fst).Nodup) (there : l.lookup name = some a) :
    l.Perm ((name, a) :: unassign name l) := by
  obtain ⟨front, back, rfl, away⟩ := List.lookup_eq_some_iff.1 there
  have before : unassign name front = front := unassign_of_lookup (List.lookup_eq_none_iff.2 away)
  have behind : unassign name back = back := by
    refine List.filter_eq_self.2 fun e inside => decide_eq_true fun same => ?_
    rw [List.map_append, List.nodup_append] at names
    exact (List.nodup_cons.1 names.2.1).1 (List.mem_map.2 ⟨e, inside, same⟩)
  have others : unassign name (front ++ (name, a) :: back) = front ++ back := by
    unfold unassign at before behind ⊢
    rw [List.filter_append, before, List.filter_cons_of_neg (by simp), behind]
  rw [others]
  exact List.perm_middle

end Entries

/-- A client seen apart from its channel. -/
structure ClientSummary where
  origin : UInt32
  closed : Bool := false
  held : Option Cursor := none
  cursors : List Cursor := []

namespace ClientSummary

def alive (clients : List (String × ClientSummary)) : List (String × UInt32) :=
  (clients.filter fun e => !e.2.closed).map (Prod.map id origin)

variable {clients : List (String × ClientSummary)} {name : String} {g : ClientSummary}

theorem mem_alive (there : (name, g) ∈ clients) (isOpen : g.closed = false) : (name, g.origin) ∈ alive clients :=
  List.mem_map.2 ⟨(name, g), List.mem_filter.2 ⟨there, by simp [isOpen]⟩, rfl⟩

end ClientSummary

structure SessionSummary where
  tables : Store
  handled : Nat := 0
  clients : List (String × ClientSummary) := []

structure SessionSummary.Sound (alive : List (String × UInt32)) (o : SessionSummary) : Prop where
  rows : o.tables.Encodes
  alive : ClientSummary.alive o.clients ⊆ alive

namespace Medium.Answering

variable {S C : Type} {m : Medium Machine S C} (a : m.Answering)

def summaryOf (member : Member C) : ClientSummary where
  origin := a.origin member.connection
  closed := a.closed member.connection
  held := member.held
  cursors := member.cursors

def standing (c : C) : List C := if a.closed c then [] else [c]

def present (members : List (String × Member C)) : List C := members.flatMap fun e => a.standing e.2.connection

/-- A session beside a server that waits is one with this summary. -/
structure Fits (o : SessionSummary) (session : Session S C) : Prop where
  hall : ∃ s machine, session.hall = Hall.serving o.tables o.handled s machine ∧
    a.Rests (a.present session.members) s machine
  clients : session.members.map (Prod.map id a.summaryOf) = o.clients
  names : (session.members.map Prod.fst).Nodup

variable {a} {members : List (String × Member C)} {member : Member C} {name : String} {c : C} {cs extra : List C} {s : S}
  {machine : Machine} {tables : Store} {handled : Nat} {o : SessionSummary} {session : Session S C}
  {spoolRoom : Option SystemFault}

theorem standing_of_closed (closed : a.closed c = true) : a.standing c = [] := if_pos closed

theorem standing_of_open (isOpen : a.closed c = false) : a.standing c = [c] := by
  simp [standing, isOpen]

theorem mem_standing {d : C} : d ∈ a.standing c ↔ d = c ∧ a.closed c = false := by
  cases closed : a.closed c with
  | true => simp [standing_of_closed closed]
  | false => simp [standing_of_open closed]

theorem present_assign (name : String) (member : Member C) (members : List (String × Member C)) :
    a.present (assign name member members) = a.standing member.connection ++ a.present (unassign name members) := rfl

theorem present_lookup (names : (members.map Prod.fst).Nodup) (there : members.lookup name = some member) :
    (a.present members).Perm (a.standing member.connection ++ a.present (unassign name members)) :=
  (perm_of_lookup names there).flatMap_right _

theorem leaves (rests : a.Rests (a.standing c ++ cs) s machine) (tables : Store) (handled : Nat) :
    ∃ c' machine', (Hall.clientPort m).close (c, Hall.serving tables handled s machine) =
        (c', Hall.serving tables handled s machine') ∧
      a.origin c' = a.origin c ∧ a.closed c' = true ∧ a.Rests cs s machine' := by
  have left : ∃ c' machine', m.client.close (c, machine) = (c', machine') ∧ a.origin c' = a.origin c ∧
      a.closed c' = true ∧ a.Rests cs s machine' := by
    cases closed : a.closed c with
    | true =>
      rw [standing_of_closed closed] at rests
      exact ⟨c, machine, a.gone _ closed, rfl, closed, rests⟩
    | false =>
      rw [standing_of_open closed] at rests
      exact a.closes rests
  obtain ⟨c', machine', closed, result⟩ := left
  exact ⟨c', machine', congrArg (fun t : C × Machine => (t.1, Hall.serving tables handled s t.2)) closed, result⟩

/-- Whoever had a name before is let go. -/
theorem releases (names : (members.map Prod.fst).Nodup) (rests : a.Rests (extra ++ a.present members) s machine)
    (name : String) (tables : Store) (handled : Nat) :
    ∃ machine', Session.release m (members.lookup name) (Hall.serving tables handled s machine) =
        Hall.serving tables handled s machine' ∧ a.Rests (extra ++ a.present (unassign name members)) s machine' := by
  cases found : members.lookup name with
  | none => exact ⟨machine, rfl, by rwa [unassign_of_lookup found]⟩
  | some member =>
    have front : (extra ++ a.present members).Perm
        (a.standing member.connection ++ (extra ++ a.present (unassign name members))) := by
      refine ((present_lookup names found).append_left extra).trans ?_
      rw [← List.append_assoc, ← List.append_assoc]
      exact List.perm_append_comm.append_right _
    obtain ⟨c', machine', closed, -, -, rests⟩ := leaves (a.perm rests front) tables handled
    exact ⟨machine', congrArg Prod.snd closed, rests⟩

theorem fits_settle (rests : a.Rests (a.present members) s machine) (names : (members.map Prod.fst).Nodup)
    (tables : Store) (handled : Nat) :
    a.Fits { tables, handled, clients := members.map (Prod.map id a.summaryOf) }
      { hall := Hall.settle m (Hall.serving tables handled s machine), members } := by
  obtain ⟨s', machine', waits, rests⟩ := a.idles rests
  exact ⟨⟨s', machine', Hall.settle_waits waits handled, rests⟩, rfl, names⟩

namespace Fits

variable (fits : a.Fits o session)

include fits

theorem lookup (name : String) : o.clients.lookup name = (session.members.lookup name).map a.summaryOf := by
  rw [← fits.clients, lookup_map]

theorem seat {g : ClientSummary} (found : o.clients.lookup name = some g) :
    ∃ member s machine, session.members.lookup name = some member ∧ a.summaryOf member = g ∧
      session.hall = Hall.serving o.tables o.handled s machine ∧
      a.Rests (a.standing member.connection ++ a.present (unassign name session.members)) s machine := by
  rw [fits.lookup, Option.map_eq_some_iff] at found
  obtain ⟨member, there, same⟩ := found
  obtain ⟨s, machine, hall, rests⟩ := fits.hall
  exact ⟨member, s, machine, there, same, hall, a.perm rests (present_lookup fits.names there)⟩

theorem mem_alive (there : c ∈ a.present session.members) : ∃ name, (name, a.origin c) ∈ ClientSummary.alive o.clients := by
  obtain ⟨e, inside, stands⟩ := List.mem_flatMap.1 there
  obtain ⟨rfl, isOpen⟩ := mem_standing.1 stands
  refine ⟨e.1, ClientSummary.mem_alive (g := a.summaryOf e.2) ?_ isOpen⟩
  rw [← fits.clients]
  exact List.mem_map.2 ⟨e, inside, rfl⟩

theorem openClient (name : String) {origin : UInt32} (some : origin ≠ 0)
    (fresh : ∀ e ∈ ClientSummary.alive o.clients, e.2 ≠ origin) :
    ∃ session', session.advance m spoolRoom (.openClient name origin) = (.opened (.ok origin), session') ∧
      a.Fits { o with clients := assign name { origin } o.clients } session' := by
  obtain ⟨hall, members⟩ := session
  obtain ⟨⟨s, machine, rfl, rests⟩, clients, names⟩ := id fits
  have away : ∀ c ∈ a.present members, a.origin c ≠ origin := fun c there => by
    obtain ⟨name, alive⟩ := fits.mem_alive there
    exact fresh _ alive
  obtain ⟨c, machine', opened, same, isOpen, rests⟩ := a.opens rests some away
  have came : Hall.machinePart.lift (m.openClient origin) (Hall.serving o.tables o.handled s machine) =
      (.ok c, Hall.serving o.tables o.handled s machine') := by
    exact congrArg (fun r : Except ChannelFault C × Machine => (r.1, Hall.serving o.tables o.handled s r.2)) opened
  have rests : a.Rests ([c] ++ a.present members) s machine' := rests
  obtain ⟨machine'', released, rests⟩ := releases names rests name o.tables o.handled
  have stands : a.Rests (a.present (assign name { connection := c } members)) s machine'' := by
    rw [present_assign, standing_of_open isOpen]
    exact rests
  have settled := fits_settle stands (names_assign names _) o.tables o.handled
  have clients' : (assign name { connection := c } members).map (Prod.map id a.summaryOf) =
      assign name { origin } o.clients := by
    rw [← clients]
    change (name, a.summaryOf { connection := c }) :: (unassign name members).map _ = (name, _) :: unassign name _
    rw [unassign_map, summaryOf, same, isOpen]
  rw [clients'] at settled
  rw [← released] at settled
  exact ⟨_, Session.advance_opened came, settled⟩

theorem drop (name : String) :
    ∃ session', session.advance m spoolRoom (.drop name) = (.dropped (o.clients.lookup name).isSome, session') ∧
      a.Fits { o with clients := unassign name o.clients } session' := by
  have existed := fits.lookup name
  obtain ⟨hall, members⟩ := session
  obtain ⟨⟨s, machine, rfl, rests⟩, clients, names⟩ := fits
  have rests : a.Rests ([] ++ a.present members) s machine := rests
  obtain ⟨machine', released, rests⟩ := releases names rests name o.tables o.handled
  have settled := fits_settle (a := a) rests (names_unassign names) o.tables o.handled
  rw [← unassign_map, clients] at settled
  rw [← released] at settled
  refine ⟨_, ?_, settled⟩
  rw [existed, Option.isSome_map]
  exact Session.advance_dropped

theorem call (there : session.members.lookup name = some member) {call : ClientCall} {answer : ClientAnswer}
    {s' : S} {machine' : Machine} {c' : C} {held : Option Cursor} {cursors : List Cursor} (tables : Store) (handled : Nat)
    (made : (Desk.upon spoolRoom member.held member.cursors (member.connection, session.hall)).perform (Hall.clientPort m)
      call = (answer, Desk.upon spoolRoom held cursors (c', Hall.serving tables handled s' machine')))
    (rests : a.Rests (a.standing c' ++ a.present (unassign name session.members)) s' machine') :
    ∃ session', session.advance m spoolRoom (.call name call) = (.answered answer, session') ∧
      a.Fits { tables, handled
               clients := assign name { origin := a.origin c', closed := a.closed c', held, cursors } o.clients }
        session' := by
  obtain ⟨hall, members⟩ := session
  obtain ⟨-, clients, names⟩ := fits
  have called : Session.callAs m spoolRoom member call hall =
      (answer, { connection := c', held, cursors }, Hall.serving tables handled s' machine') := by
    exact congrArg (fun r : ClientAnswer × Desk (C × Hall S) => (r.1,
      ({ connection := r.2.client.world.1, held := r.2.client.held, cursors := r.2.cursors } : Member C),
      r.2.client.world.2)) made
  have stands : a.Rests (a.present (assign name { connection := c', held, cursors } members)) s' machine' := by
    rw [present_assign]
    exact rests
  have settled := fits_settle stands (names_assign names _) tables handled
  have clients' : (assign name { connection := c', held, cursors } members).map (Prod.map id a.summaryOf) =
      assign name { origin := a.origin c', closed := a.closed c', held, cursors } o.clients := by
    rw [← clients]
    change (name, _) :: (unassign name members).map _ = (name, _) :: unassign name _
    rw [unassign_map]
    rfl
  rw [clients'] at settled
  exact ⟨_, Session.advance_called there called, settled⟩

theorem noClient (absent : o.clients.lookup name = none) (call : ClientCall) :
    ∃ session', session.advance m spoolRoom (.call name call) = (.noClient, session') ∧ a.Fits o session' := by
  have absent : session.members.lookup name = none := by
    rw [fits.lookup, Option.map_eq_none_iff] at absent
    exact absent
  obtain ⟨hall, members⟩ := session
  obtain ⟨⟨s, machine, rfl, rests⟩, clients, names⟩ := fits
  have settled := fits_settle (a := a) rests names o.tables o.handled
  rw [clients] at settled
  exact ⟨_, Session.advance_absent absent call, settled⟩

end Fits

end Medium.Answering

end DiscCatalog
