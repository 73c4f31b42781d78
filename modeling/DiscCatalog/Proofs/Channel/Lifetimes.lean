import DiscCatalog.Proofs.Channel.PipeGrounds

namespace DiscCatalog

open Host

theorem Host.length_handles_close (i : Nat) (h : Host) : (h.close i).handles.length = h.handles.length := by
  cases held : h.handle? i with
  | none => rw [close_of_none held]
  | some x => obtain same | ⟨-, -, same⟩ := close_eq held <;> rw [same] <;> simp [removing, setContent]

structure Renamed (place : Location) (at? : Option Nat) (h h' : Host) : Prop where
  names : ∀ q, h'.nodeOf? q = if q = place then at? else h.nodeOf? q
  later : Later h h'
  calm : Calm h h'

namespace PipeSettings.Grounds

variable {settings : PipeSettings} {home : Location} {room : Nat} {h : Host} {name : String}
  (grounds : settings.Grounds home room h)

include grounds

theorem unlink_renamed (sound : h.Sound) (own : PipeName name) :
    Renamed (home ++ [name]) none h (h.unlink (joinPath settings.directory name)).2 where
  names q := by
    obtain ⟨-, free, -⟩ := grounds.removeStale sound own
    split
    · next same => rw [same, free]
    · next other =>
      obtain same | ⟨place, walked, same⟩ := unlink_cases (joinPath settings.directory name) h
      · rw [same]
      · cases (grounds.walk own false).symm.trans walked
        rw [same, nodeOf?_forget, if_neg other]
  later := later_unlink sound _
  calm := (grounds.removeStale sound own).2.2

theorem replacePipe_renamed (sound : h.Sound) (own : PipeName name) :
    ∃ h', DiscCatalog.replacePipe (joinPath settings.directory name) settings.permissions h = (.ok (), h') ∧
      Renamed (home ++ [name]) (some h.nodes.length) h h' ∧
      h'.nodes = h.nodes ++ [⟨.pipe {}, grant settings.permissions.toNat⟩] ∧ h'.handles = h.handles := by
  obtain ⟨h₁, -, -, nodes, handles, -, replaced⟩ := grounds.replacePipe sound own
  obtain ⟨f, failed⟩ | ⟨place, walked, free, made⟩ :=
    replacePipe_cases (joinPath settings.directory name) settings.permissions h
  · cases failed.symm.trans replaced
  have gone := grounds.unlink_renamed sound own
  cases ((grounds.later gone.later gone.calm).walk own false).symm.trans walked
  have same : h₁.create (home ++ [name]) ⟨.pipe {}, grant settings.permissions.toNat⟩ =
      (h.unlink (joinPath settings.directory name)).2.create (home ++ [name]) ⟨.pipe {}, grant settings.permissions.toNat⟩ :=
    (Prod.ext_iff.1 (replaced.symm.trans made)).2
  have count : (h.unlink (joinPath settings.directory name)).2.nodes = h.nodes := by
    obtain same | ⟨place, -, same⟩ := unlink_cases (joinPath settings.directory name) h <;> rw [same]
    rfl
  refine ⟨_, made, ⟨fun q => ?_, gone.later.trans (later_create gone.later.sound free (by simp) (by simp)),
    gone.calm.trans (calm_create free _)⟩, ?_, ?_⟩
  · rw [nodeOf?_create free, count, gone.names]
    split <;> rfl
  · rw [create, count]
  · rw [← same]
    exact handles

end PipeSettings.Grounds

structure Standing (settings : PipeSettings) (home : Location) (name : String) (pipe : Nat) (h : Host) : Prop where
  sound : h.Sound
  grounds : settings.Grounds home 0 h
  stands : PipeAt h (home ++ [name]) pipe
  usable : Usable pipe h

namespace Standing

variable {settings : PipeSettings} {home : Location} {name : String} {pipe : Nat} {h : Host}
  (standing : Standing settings home name pipe h)

include standing

theorem adding (x : Handle) (node : x.node = pipe) : Standing settings home name pipe (h.adding (some x)) := by
  have later : Later h (h.adding (some x)) := later_adding standing.sound (node ▸ standing.sound.there standing.stands.1)
  have calm : Calm h (h.adding (some x)) := calm_of_handles _ h
  exact ⟨later.sound, standing.grounds.later later calm, standing.stands, standing.usable.calm calm⟩

theorem openPath (own : PipeSettings.PipeName name) (access : Access) (blocking : Bool)
    (meets : h.meets pipe access blocking = .ok ()) :
    h.openPath (joinPath settings.directory name) access blocking =
      (.ok h.handles.length, h.adding (some { node := pipe, access, blocking })) :=
  standing.grounds.openPath own standing.stands standing.usable meets

end Standing

/-- An end that was opened, a server's or a client's. -/
inductive PipeEnd where
  | server (s : PipeServer)
  | client (c : PipeClient)

namespace PipeEnd

/-- The name of the end's pipe. -/
def name : PipeEnd → String
  | server _ => PipeSettings.serverName
  | client c => PipeSettings.clientName c.origin

def isOpen : PipeEnd → Bool
  | server s => !s.closed
  | client c => !c.closed

def held : PipeEnd → Option Nat
  | server s => s.inbound
  | client c => c.toServer

def Unused (settings : PipeSettings) : PipeEnd → Prop
  | server s => s.settings = settings ∧ s.path = settings.serverPath ∧ s.outbound = none
  | client c => c.path = settings.clientPath c.origin ∧ c.reader = none ∧ c.writer = none

def close : PipeEnd → Host → PipeEnd × Host
  | server s, h => (server (PipeServer.close (s, h)).1, (PipeServer.close (s, h)).2)
  | client c, h => (client (PipeClient.close (c, h)).1, (PipeClient.close (c, h)).2)

theorem pipeName (e : PipeEnd) : PipeSettings.PipeName e.name := by
  cases e with
  | server => exact .inl rfl
  | client c => exact .inr ⟨c.origin, rfl⟩

end PipeEnd

/-- What is done in the directory: ends are opened, and closed, be it because they are dropped. Ends are known by
the order in which they were opened. -/
inductive PipeCall where
  | openServer
  | openClient (origin : UInt32)
  | close (number : Nat)

structure Pipes where
  host : Host
  ends : List PipeEnd := []

namespace Pipes

def perform (settings : PipeSettings) : PipeCall → Pipes → Pipes
  | .openServer, p =>
    match PipeServer.openOn settings p.host with
    | (.ok s, host) => ⟨host, p.ends ++ [.server s]⟩
    | (.error _, host) => ⟨host, p.ends⟩
  | .openClient origin, p =>
    match PipeClient.openOn settings origin p.host with
    | (.ok c, host) => ⟨host, p.ends ++ [.client c]⟩
    | (.error _, host) => ⟨host, p.ends⟩
  | .close number, p =>
    match p.ends[number]? with
    | some e => ⟨(e.close p.host).2, p.ends.set number (e.close p.host).1⟩
    | none => p

def run (settings : PipeSettings) (calls : List PipeCall) (p : Pipes) : Pipes :=
  calls.foldl (fun p call => p.perform settings call) p

def Opens (settings : PipeSettings) (name : String) (call : PipeCall) (p : Pipes) : Prop :=
  ∃ e, (p.perform settings call).ends = p.ends ++ [e] ∧ e.name = name

def Closes (name : String) (call : PipeCall) (p : Pipes) : Prop :=
  ∃ number e, call = .close number ∧ p.ends[number]? = some e ∧ e.isOpen = true ∧ e.name = name

/-- None of the calls opens or closes an end of this name. -/
def Untouched (settings : PipeSettings) (name : String) : List PipeCall → Pipes → Prop
  | [], _ => True
  | call :: calls, p =>
    ¬ Opens settings name call p ∧ ¬ Closes name call p ∧ Untouched settings name calls (p.perform settings call)

section Steps

variable {settings : PipeSettings} {home : Location} {p : Pipes} {h h' : Host} {e : PipeEnd}

structure Made (settings : PipeSettings) (home : Location) (e : PipeEnd) (h h' : Host) : Prop where
  renamed : Renamed (home ++ [e.name]) (some h.nodes.length) h h'
  nodes : h'.nodes = h.nodes ++ [⟨.pipe {}, grant settings.permissions.toNat⟩]
  handles : ∃ x, h'.handles = h.handles ++ [some x] ∧
    ∀ s, e = .server s → x = { node := h.nodes.length, access := .read }

structure Gone (home : Location) (e : PipeEnd) (h h' : Host) : Prop where
  renamed : Renamed (home ++ [e.name]) none h h'
  count : h'.nodes.length = h.nodes.length
  handles : h'.handles.length = h.handles.length ∧ ∀ i, some i ≠ e.held → h'.handle? i = h.handle? i
  pipes : ∀ n, (∃ b, h.contentOf? n = some (.pipe b)) → ∃ b, h'.contentOf? n = some (.pipe b)

inductive Effect (settings : PipeSettings) (home : Location) (p : Pipes) : PipeCall → Pipes → Prop
  | nothing {call : PipeCall} : (∀ number e, call = .close number → p.ends[number]? = some e → e.isOpen = false) →
      Effect settings home p call p
  | opened {call : PipeCall} {e : PipeEnd} {h' : Host} : (∀ number, call ≠ .close number) →
      e.Unused settings → e.isOpen = true → e.held = some p.host.handles.length →
      Made settings home e p.host h' → Effect settings home p call ⟨h', p.ends ++ [e]⟩
  | closed {number : Nat} {e e' : PipeEnd} {h' : Host} : p.ends[number]? = some e → e.isOpen = true →
      e'.Unused settings → e'.isOpen = false → e'.held = none → e'.name = e.name →
      Gone home e p.host h' → Effect settings home p (.close number) ⟨h', p.ends.set number e'⟩

theorem openServer_made (sound : h.Sound) (grounds : settings.Grounds home 0 h) :
    ∃ s h', PipeServer.openOn settings h = (.ok s, h') ∧ (PipeEnd.server s).Unused settings ∧ s.closed = false ∧
      s.inbound = some h.handles.length ∧ Made settings home (.server s) h h' := by
  obtain ⟨h₁, replaced, renamed, nodes, handles⟩ := grounds.replacePipe_renamed sound (.inl rfl)
  have there : h₁.nodes[h.nodes.length]? = some ⟨.pipe {}, grant settings.permissions.toNat⟩ := by simp [nodes]
  have stands : PipeAt h₁ (home ++ [PipeSettings.serverName]) h.nodes.length :=
    ⟨by rw [renamed.names, if_pos rfl], {}, by rw [contentOf?, there]; rfl⟩
  have usable : Usable h.nodes.length h₁ :=
    ⟨grant settings.permissions.toNat, by simp [nodes], grant_owned grounds.proper.owned⟩
  have freely : h₁.meets h.nodes.length .read false = .ok () := rfl
  have opened := (grounds.later renamed.later renamed.calm).openPath (.inl rfl) stands usable freely
  have replaced : replacePipe settings.serverPath settings.permissions h = (.ok (), h₁) := replaced
  have opened : h₁.openPath settings.serverPath .read false = _ := opened
  have adding : Later h₁ (h₁.adding (some { node := h.nodes.length, access := .read })) :=
    later_adding renamed.later.sound (by simp [nodes])
  refine ⟨{ settings, path := settings.serverPath, inbound := some h₁.handles.length }, _, ?_, ⟨rfl, rfl, rfl⟩, rfl,
    by rw [handles], ⟨⟨fun q => ?_, renamed.later.trans adding, renamed.calm.trans (calm_of_handles _ _)⟩, nodes,
      _, by rw [Host.adding, handles], fun _ _ => rfl⟩⟩
  · exact PipeServer.openOn_opened replaced opened
  · exact renamed.names q

theorem openClient_made (sound : h.Sound) (grounds : settings.Grounds home 0 h) (origin : UInt32) :
    (∃ f, PipeClient.openOn settings origin h = (.error f, h)) ∨
      ∃ c h', PipeClient.openOn settings origin h = (.ok c, h') ∧ (PipeEnd.client c).Unused settings ∧
        c.closed = false ∧ c.toServer = some h.handles.length ∧ Made settings home (.client c) h h' := by
  obtain ⟨e, failed⟩ | ⟨place, number, node, found, -, opened⟩ := openPath_cases settings.serverPath .write false h
  · exact .inl ⟨_, PipeClient.openOn_unconnected (PipeClient.connect_failed failed)⟩
  · have connected : PipeClient.connect settings h =
        (.ok h.handles.length, h.adding (some { node := number, access := .write })) := PipeClient.connect_opened opened
    have joining : Later h (h.adding (some { node := number, access := .write })) :=
      later_adding sound (sound.there (walk_of_find found).2.1)
    have calm : Calm h (h.adding (some { node := number, access := .write })) := calm_of_handles _ h
    obtain ⟨h', replaced, renamed, nodes, handles⟩ :=
      (grounds.later joining calm).replacePipe_renamed joining.sound (.inr ⟨origin, rfl⟩)
    have replaced : replacePipe (settings.clientPath origin) settings.permissions _ = (.ok (), h') := replaced
    exact .inr ⟨{ origin, path := settings.clientPath origin, toServer := some h.handles.length }, h',
      PipeClient.openOn_made connected replaced, ⟨rfl, rfl, rfl⟩, rfl, rfl,
      ⟨fun q => renamed.names q, joining.trans renamed.later, calm.trans renamed.calm⟩, nodes, _, handles,
      fun s same => by cases same⟩

theorem closeHeld_renamed_gone (sound : h.Sound) (grounds : settings.Grounds home 0 h) (e : PipeEnd) :
    Gone home e h ((closeHeld e.held h).unlink (joinPath settings.directory e.name)).2 := by
  have calm := calm_closeHeld e.held h
  have later := later_closeHeld sound e.held
  have renamed := (grounds.later later calm).unlink_renamed later.sound e.pipeName
  have names := names_closeHeld e.held h
  have unlinked : ((closeHeld e.held h).unlink (joinPath settings.directory e.name)).2.nodes = (closeHeld e.held h).nodes ∧
      ((closeHeld e.held h).unlink (joinPath settings.directory e.name)).2.handles = (closeHeld e.held h).handles := by
    obtain same | ⟨place, -, same⟩ := unlink_cases (joinPath settings.directory e.name) (closeHeld e.held h) <;>
      rw [same] <;> exact ⟨rfl, rfl⟩
  obtain ⟨nodes, handles⟩ := unlinked
  refine ⟨⟨fun q => ?_, later.trans renamed.later, calm.trans renamed.calm⟩, ?_, ⟨?_, fun i other => ?_⟩, fun n pipe => ?_⟩
  · rw [renamed.names, nodeOf?, names]
    rfl
  · rw [nodes]
    cases e.held with
    | none => rfl
    | some i => exact length_nodes_close i h
  · rw [handles]
    cases e.held with
    | none => rfl
    | some i => exact length_handles_close i h
  · rw [handle?, handles]
    cases held : e.held with
    | none => rfl
    | some j =>
      rw [held] at other
      exact handle?_close.trans (if_neg fun same => other (congrArg some same))
  · rw [contentOf?, nodes]
    cases e.held with
    | none => exact pipe
    | some i => exact Unread.content_close pipe i

theorem close_gone (sound : h.Sound) (grounds : settings.Grounds home 0 h) (unused : e.Unused settings)
    (isOpen : e.isOpen = true) :
    (e.close h).1.Unused settings ∧ (e.close h).1.isOpen = false ∧ (e.close h).1.held = none ∧
      (e.close h).1.name = e.name ∧ Gone home e h (e.close h).2 := by
  have gone := closeHeld_renamed_gone sound grounds e
  cases e with
  | server s =>
    obtain ⟨rfl, path, outbound⟩ := unused
    have still : s.closed = false := by simpa [PipeEnd.isOpen] using isOpen
    have closed : PipeServer.close (s, h) =
        ({ s with closed := true, inbound := none, outbound := none, reopening := false },
          ((closeHeld s.inbound h).unlink s.path).2) := by
      rw [PipeServer.close_open still, outbound]
      rfl
    have same : s.path = joinPath s.settings.directory PipeSettings.serverName := path
    simp only [PipeEnd.close, closed]
    rw [same]
    exact ⟨⟨rfl, rfl, rfl⟩, rfl, rfl, rfl, gone⟩
  | client c =>
    obtain ⟨path, reader, writer⟩ := unused
    have still : c.closed = false := by simpa [PipeEnd.isOpen] using isOpen
    have closed : PipeClient.close (c, h) =
        ({ c with closed := true, toServer := none, reader := none, writer := none },
          ((closeHeld c.toServer h).unlink c.path).2) := by
      rw [PipeClient.close_open still, reader, writer]
      rfl
    have same : c.path = joinPath settings.directory (PipeSettings.clientName c.origin) := path
    simp only [PipeEnd.close, closed]
    rw [same]
    exact ⟨⟨rfl, rfl, rfl⟩, rfl, rfl, rfl, gone⟩

theorem close_of_closed (closed : e.isOpen = false) : e.close h = (e, h) := by
  cases e with
  | server s =>
    have closed : s.closed = true := by simpa [PipeEnd.isOpen] using closed
    rw [PipeEnd.close, PipeServer.close_closed closed]
  | client c =>
    have closed : c.closed = true := by simpa [PipeEnd.isOpen] using closed
    rw [PipeEnd.close, PipeClient.close_closed closed]

structure Sited (settings : PipeSettings) (home : Location) (p : Pipes) : Prop where
  sound : p.host.Sound
  grounds : settings.Grounds home 0 p.host
  unused : ∀ e ∈ p.ends, e.Unused settings
  taken : ∀ e ∈ p.ends, ∀ i ∈ e.held, i < p.host.handles.length
  apart : ∀ {j k : Nat} {e f : PipeEnd}, p.ends[j]? = some e → p.ends[k]? = some f → ∀ i ∈ e.held, i ∈ f.held → j = k

theorem Sited.effect (sited : Sited settings home p) (call : PipeCall) :
    Effect settings home p call (p.perform settings call) := by
  cases call with
  | openServer =>
    obtain ⟨s, h', opened, unused, isOpen, held, made⟩ := openServer_made sited.sound sited.grounds
    rw [perform, opened]
    exact .opened (fun _ same => by cases same) unused (by simp [PipeEnd.isOpen, isOpen]) held made
  | openClient origin =>
    obtain ⟨f, failed⟩ | ⟨c, h', opened, unused, isOpen, held, made⟩ := openClient_made sited.sound sited.grounds origin
    · rw [perform, failed]
      exact .nothing fun _ _ same => by cases same
    · rw [perform, opened]
      exact .opened (fun _ same => by cases same) unused (by simp [PipeEnd.isOpen, isOpen]) held made
  | close number =>
    rw [perform]
    cases found : p.ends[number]? with
    | none => exact .nothing fun _ e same there => by cases same; rw [found] at there; cases there
    | some e =>
      dsimp only
      cases isOpen : e.isOpen with
      | true =>
        obtain ⟨unused, closed, held, name, gone⟩ :=
          close_gone sited.sound sited.grounds (sited.unused e (List.mem_of_getElem? found)) isOpen
        exact .closed found isOpen unused closed held name gone
      | false =>
        have same : p.ends.set number e = p.ends := by
          obtain ⟨there, rfl⟩ := List.getElem?_eq_some_iff.1 found
          exact List.set_getElem_self there
        rw [close_of_closed isOpen, same]
        refine .nothing fun k f same there => ?_
        cases same
        rw [found] at there
        cases there
        exact isOpen

theorem Sited.opened {e : PipeEnd} {h' : Host} (sited : Sited settings home p) (unused : e.Unused settings)
    (held : e.held = some p.host.handles.length) (made : Made settings home e p.host h') :
    Sited settings home ⟨h', p.ends ++ [e]⟩ := by
  obtain ⟨x, handles, -⟩ := made.handles
  have count : h'.handles.length = p.host.handles.length + 1 := by simp [handles]
  refine ⟨made.renamed.later.sound, sited.grounds.later made.renamed.later made.renamed.calm, ?_, ?_, ?_⟩
  · exact List.forall_mem_append.2 ⟨sited.unused, List.forall_mem_singleton.2 unused⟩
  · refine List.forall_mem_append.2 ⟨fun f there i holds => ?_, List.forall_mem_singleton.2 fun i holds => ?_⟩
    · have := sited.taken f there i holds
      simp only [count]
      omega
    · cases held.symm.trans holds
      simp only [count]
      omega
  · have old {k : Nat} {f : PipeEnd} (there : (p.ends ++ [e])[k]? = some f) {i : Nat} (holds : i ∈ f.held) :
        p.ends[k]? = some f ∧ i < p.host.handles.length ∨ k = p.ends.length ∧ i = p.host.handles.length := by
      by_cases before : k < p.ends.length
      · rw [List.getElem?_append_left before] at there
        exact .inl ⟨there, sited.taken f (List.mem_of_getElem? there) i holds⟩
      · rw [List.getElem?_append_right (Nat.not_lt.1 before), List.getElem?_singleton] at there
        split at there
        · next last =>
          cases there
          cases held.symm.trans holds
          exact .inr ⟨by omega, rfl⟩
        · cases there
    intro j k f g hf hg i holds holds'
    obtain ⟨hf, lt⟩ | ⟨rfl, rfl⟩ := old hf holds
    · obtain ⟨hg, -⟩ | ⟨-, same⟩ := old hg holds'
      · exact sited.apart hf hg i holds holds'
      · omega
    · obtain ⟨-, lt⟩ | ⟨same, -⟩ := old hg holds'
      · omega
      · exact same.symm

theorem Sited.closed {number : Nat} {e e' : PipeEnd} {h' : Host} (sited : Sited settings home p)
    (unused : e'.Unused settings) (none : e'.held = none) (gone : Gone home e p.host h') :
    Sited settings home ⟨h', p.ends.set number e'⟩ := by
  have member {f : PipeEnd} (there : f ∈ p.ends.set number e') : f ∈ p.ends ∨ f = e' := List.mem_or_eq_of_mem_set there
  refine ⟨gone.renamed.later.sound, sited.grounds.later gone.renamed.later gone.renamed.calm, fun f there => ?_,
    fun f there i holds => ?_, fun {j k f g} hf hg i holds holds' => ?_⟩
  · obtain there | rfl := member there
    · exact sited.unused f there
    · exact unused
  · obtain there | rfl := member there
    · rw [gone.handles.1]
      exact sited.taken f there i holds
    · rw [none] at holds
      cases holds
  · have before {k : Nat} {f : PipeEnd} (there : (p.ends.set number e')[k]? = some f) (holds : i ∈ f.held) :
        p.ends[k]? = some f := by
      rw [List.getElem?_set] at there
      split at there
      · split at there
        · cases there
          rw [none] at holds
          cases holds
        · cases there
      · exact there
    exact sited.apart (before hf holds) (before hg holds') i holds holds'

theorem Sited.perform (sited : Sited settings home p) (call : PipeCall) : Sited settings home (p.perform settings call) := by
  have effect := sited.effect call
  generalize p.perform settings call = p' at effect
  cases effect with
  | nothing => exact sited
  | opened _ unused _ held made => exact sited.opened unused held made
  | closed _ _ unused _ none _ gone => exact sited.closed unused none gone

theorem Sited.run (sited : Sited settings home p) (calls : List PipeCall) : Sited settings home (p.run settings calls) := by
  induction calls generalizing p with
  | nil => exact sited
  | cons call calls ih => exact ih (sited.perform call)

/-- What stands under a name changes when an end of that name is opened or closed, and only then. -/
theorem Sited.names (sited : Sited settings home p) (call : PipeCall) (name : String) :
    (p.perform settings call).host.nodeOf? (home ++ [name]) = p.host.nodeOf? (home ++ [name]) ∧
        ¬ Opens settings name call p ∧ ¬ Closes name call p ∨
      (p.perform settings call).host.nodeOf? (home ++ [name]) = some p.host.nodes.length ∧ Opens settings name call p ∨
      (p.perform settings call).host.nodeOf? (home ++ [name]) = none ∧ Closes name call p := by
  have effect := sited.effect call
  have unfolded : Opens settings name call p ↔ ∃ e, (p.perform settings call).ends = p.ends ++ [e] ∧ e.name = name := Iff.rfl
  rw [unfolded]
  generalize p.perform settings call = p' at effect
  have grown (e : PipeEnd) : p.ends ≠ p.ends ++ [e] := fun same => by
    have := congrArg List.length same
    simp at this
  have other {e : PipeEnd} (differ : e.name ≠ name) : home ++ [name] ≠ home ++ [e.name] := fun same =>
    differ (List.cons.inj (List.append_cancel_left same)).1.symm
  cases effect with
  | nothing idle =>
    refine .inl ⟨rfl, fun ⟨e, same, _⟩ => grown e same, ?_⟩
    rintro ⟨number, e, same, there, isOpen, -⟩
    rw [idle number e same there] at isOpen
    cases isOpen
  | @opened _ e h' noClose unused isOpen held made =>
    by_cases own : e.name = name
    · subst own
      exact .inr (.inl ⟨by rw [made.renamed.names, if_pos rfl], e, rfl, rfl⟩)
    · refine .inl ⟨by rw [made.renamed.names, if_neg (other own)], ?_, ?_⟩
      · rintro ⟨f, same, rfl⟩
        exact own (congrArg PipeEnd.name (List.singleton_inj.1 (List.append_cancel_left same)))
      · rintro ⟨number, f, same, -⟩
        exact noClose number same
  | @closed number e e' h' found isOpen unused closed none name' gone =>
    by_cases own : e.name = name
    · subst own
      exact .inr (.inr ⟨by rw [gone.renamed.names, if_pos rfl], number, e, rfl, found, isOpen, rfl⟩)
    · refine .inl ⟨by rw [gone.renamed.names, if_neg (other own)], ?_, ?_⟩
      · rintro ⟨f, same, -⟩
        have := congrArg List.length same
        simp at this
      · rintro ⟨k, f, same, there, -, rfl⟩
        cases same
        cases found.symm.trans there
        exact own rfl

structure Tracks (k pipe : Nat) (name : String) (p : Pipes) : Prop where
  content : ∃ b, p.host.contentOf? pipe = some (.pipe b)
  usable : Usable pipe p.host
  named : ∃ e, p.ends[k]? = some e ∧ e.name = name
  reads : ∀ s, p.ends[k]? = some (.server s) → s.closed = false →
    ∃ i, s.inbound = some i ∧ p.host.handle? i = some { node := pipe, access := .read }

variable {k pipe : Nat} {name : String}

theorem Tracks.lt_nodes (tracks : Tracks k pipe name p) : pipe < p.host.nodes.length := by
  obtain ⟨b, content⟩ := tracks.content
  obtain ⟨node, there, -⟩ := Option.map_eq_some_iff.1 content
  exact (List.getElem?_eq_some_iff.1 there).1

theorem Tracks.perform (tracks : Tracks k pipe name p) (sited : Sited settings home p) (call : PipeCall) :
    Tracks k pipe name (p.perform settings call) := by
  have old := tracks.lt_nodes
  obtain ⟨content, usable, ⟨own, there, named⟩, reads⟩ := tracks
  have inside : k < p.ends.length := (List.getElem?_eq_some_iff.1 there).1
  have effect := sited.effect call
  generalize p.perform settings call = p' at effect
  cases effect with
  | nothing => exact ⟨content, usable, ⟨own, there, named⟩, reads⟩
  | @opened _ e h' _ unused _ held made =>
    obtain ⟨x, handles, -⟩ := made.handles
    have same : (p.ends ++ [e])[k]? = p.ends[k]? := List.getElem?_append_left inside
    refine ⟨?_, usable.calm made.renamed.calm, ⟨own, same.trans there, named⟩, fun s found isOpen => ?_⟩
    · rw [contentOf?, made.nodes, List.getElem?_append_left old]
      exact content
    · obtain ⟨i, holds, found⟩ := reads s (same.symm.trans found) isOpen
      refine ⟨i, holds, ?_⟩
      rw [handle?, handles, List.getElem?_append_left (lt_of_handle? found)]
      exact found
  | @closed number e e' h' found isOpen unused closed none name' gone =>
    refine ⟨gone.pipes pipe content, usable.calm gone.renamed.calm, ?_, fun s at? still => ?_⟩
    · by_cases same : number = k
      · subst same
        cases found.symm.trans there
        exact ⟨e', by rw [List.getElem?_set, if_pos rfl, if_pos inside], name'.trans named⟩
      · exact ⟨own, by rw [List.getElem?_set, if_neg same, there], named⟩
    · by_cases same : number = k
      · subst same
        rw [List.getElem?_set, if_pos rfl, if_pos inside] at at?
        cases at?
        simp [PipeEnd.isOpen, still] at closed
      · rw [List.getElem?_set, if_neg same] at at?
        obtain ⟨i, holds, read⟩ := reads s at? still
        refine ⟨i, holds, (gone.handles.2 i fun both => same ?_).trans read⟩
        exact sited.apart found at? i both.symm holds

theorem Tracks.run (tracks : Tracks k pipe name p) (sited : Sited settings home p) (calls : List PipeCall) :
    Tracks k pipe name (p.run settings calls) := by
  induction calls generalizing p with
  | nil => exact tracks
  | cons call calls ih => exact ih (tracks.perform sited call) (sited.perform call)

/-- A pipe that does not stand under its name any more never will again. -/
theorem Tracks.stays_away (tracks : Tracks k pipe name p) (sited : Sited settings home p) (calls : List PipeCall)
    (away : p.host.nodeOf? (home ++ [name]) ≠ some pipe) :
    (p.run settings calls).host.nodeOf? (home ++ [name]) ≠ some pipe := by
  induction calls generalizing p with
  | nil => exact away
  | cons call calls ih =>
    refine ih (tracks.perform sited call) (sited.perform call) ?_
    obtain ⟨same, -⟩ | ⟨new, -⟩ | ⟨gone, -⟩ := sited.names call name
    · rwa [same]
    · rw [new]
      exact fun same => absurd tracks.lt_nodes (Option.some.inj same ▸ Nat.lt_irrefl _)
    · rw [gone]
      exact fun same => by cases same

theorem Tracks.stands_iff (tracks : Tracks k pipe name p) (sited : Sited settings home p) (calls : List PipeCall)
    (stands : p.host.nodeOf? (home ++ [name]) = some pipe) :
    (p.run settings calls).host.nodeOf? (home ++ [name]) = some pipe ↔ Untouched settings name calls p := by
  induction calls generalizing p with
  | nil => exact iff_of_true stands trivial
  | cons call calls ih =>
    have tracks' := tracks.perform sited call
    have sited' := sited.perform call
    obtain ⟨same, noOpen, noClose⟩ | ⟨new, opens⟩ | ⟨gone, closes⟩ := sited.names call name
    · refine (ih tracks' sited' (same.trans stands)).trans ⟨fun rest => ⟨noOpen, noClose, rest⟩, fun all => all.2.2⟩
    · refine iff_of_false (tracks'.stays_away sited' calls ?_) fun all => all.1 opens
      rw [new]
      exact fun same => absurd tracks.lt_nodes (Option.some.inj same ▸ Nat.lt_irrefl _)
    · refine iff_of_false (tracks'.stays_away sited' calls ?_) fun all => all.2.1 closes
      rw [gone]
      exact fun same => by cases same

/-- Who looks for an end finds this pipe: clients connect to a server by it, and servers that are open reply to a
client by it, once that has begun to listen. -/
def Reaches (settings : PipeSettings) (pipe : Nat) (p : Pipes) : PipeEnd → Prop
  | .server _ => ∃ i h', PipeClient.connect settings p.host = (.ok i, h') ∧
      h'.handle? i = some { node := pipe, access := .write }
  | .client c => ∃ c' h', PipeClient.replyBegin (c, p.host) = (.ok (), c', h') ∧
      ∀ s, .server s ∈ p.ends → s.closed = false → ∃ s' i h'', PipeServer.replyBegin c.origin (s, h') = (.ok (), s', h'') ∧
        s'.outbound = some i ∧ h''.handle? i = some { node := pipe, access := .write }

theorem Tracks.reaches (tracks : Tracks k pipe name p) (sited : Sited settings home p) (there : p.ends[k]? = some e)
    (isOpen : e.isOpen = true) (stands : p.host.nodeOf? (home ++ [name]) = some pipe) : Reaches settings pipe p e := by
  obtain ⟨content, usable, ⟨own, there', named⟩, reads⟩ := tracks
  cases there.symm.trans there'
  subst named
  have grounds := sited.grounds
  cases e with
  | server s =>
    have isOpen : s.closed = false := by simpa [PipeEnd.isOpen] using isOpen
    obtain ⟨i, -, found⟩ := reads s there isOpen
    have reader : p.host.meets pipe .write false = .ok () := if_pos (hasReader_iff.2 ⟨i, _, found, rfl, rfl⟩)
    have opened : p.host.openPath settings.serverPath .write false = _ :=
      grounds.openPath (.inl rfl) ⟨stands, content⟩ usable reader
    exact ⟨p.host.handles.length, _, PipeClient.connect_opened opened, handle?_adding _⟩
  | client c =>
    have isOpen : c.closed = false := by simpa [PipeEnd.isOpen] using isOpen
    obtain ⟨path, reader, writer⟩ := sited.unused _ (List.mem_of_getElem? there)
    have first : Standing settings home (PipeSettings.clientName c.origin) pipe p.host :=
      ⟨sited.sound, grounds, ⟨stands, content⟩, usable⟩
    have second := first.adding { node := pipe, access := .read, blocking := false } rfl
    let both : Host :=
      (p.host.adding (some { node := pipe, access := .read })).adding (some { node := pipe, access := .write })
    have third : Standing settings home (PipeSettings.clientName c.origin) pipe both :=
      (first.adding { node := pipe, access := .read } rfl).adding { node := pipe, access := .write } rfl
    have opened := first.openPath (.inr ⟨c.origin, rfl⟩) .read false rfl
    have opened' := second.openPath (.inr ⟨c.origin, rfl⟩) .write true
      (if_pos (hasReader_iff.2 ⟨_, _, handle?_adding _, rfl, rfl⟩))
    have listens := third.openPath (.inr ⟨c.origin, rfl⟩) .write true
      (if_pos (hasReader_iff.2 ⟨_, _, handle?_adding_iff.2 (.inl (handle?_adding _)), rfl, rfl⟩))
    have same : c.path = joinPath settings.directory (PipeSettings.clientName c.origin) := path
    have last : (p.host.adding (some { node := pipe, access := .read, blocking := false })).handles.length =
        p.host.handles.length + 1 := by simp [Host.adding]
    rw [← same] at opened opened'
    rw [last] at opened'
    have begun : PipeClient.replyBegin (c, p.host) = (.ok (),
        { c with reader := some p.host.handles.length, writer := some (p.host.handles.length + 1) }, both) := by
      rw [PipeClient.replyBegin_opened isOpen (by simp [reader]) opened opened', makeBlocking_adding_adding]
    refine ⟨_, _, begun, fun s server still => ?_⟩
    obtain ⟨rfl, -, outbound⟩ := sited.unused _ server
    have replies : openPath (s.settings.clientPath c.origin) .write true both = _ := listens
    refine ⟨{ s with outbound := some both.handles.length }, _, both.adding (some { node := pipe, access := .write }), ?_,
      rfl, handle?_adding _⟩
    rw [PipeServer.replyBegin_opened still replies, outbound, closeHeld]

end Steps

variable {settings : PipeSettings} {home : Location} {h : Host}

theorem sited_start (sound : h.Sound) (grounds : settings.Grounds home 0 h) : Sited settings home { host := h } :=
  ⟨sound, grounds, by simp, by simp, fun found => by cases found⟩

/-- An end that is opened makes a pipe of its own. -/
theorem Sited.opens {p : Pipes} {call : PipeCall} {e : PipeEnd} (sited : Sited settings home p)
    (opened : (p.perform settings call).ends = p.ends ++ [e]) :
    Tracks p.ends.length p.host.nodes.length e.name (p.perform settings call) ∧
      (p.perform settings call).host.nodeOf? (home ++ [e.name]) = some p.host.nodes.length := by
  have effect := sited.effect call
  generalize p.perform settings call = p' at *
  have longer := congrArg List.length opened
  rw [List.length_append, List.length_singleton] at longer
  cases effect with
  | nothing => omega
  | closed => simp at longer
  | @opened _ f h' _ unused _ held made =>
    cases List.singleton_inj.1 (List.append_cancel_left opened)
    obtain ⟨x, handles, reads⟩ := made.handles
    have last : (p.ends ++ [e])[p.ends.length]? = some e := by simp
    refine ⟨⟨⟨{}, by simp [contentOf?, made.nodes]⟩, ⟨grant settings.permissions.toNat, by simp [made.nodes],
      grant_owned sited.grounds.proper.owned⟩, ⟨e, last, rfl⟩, fun s there _ => ?_⟩, ?_⟩
    · cases last.symm.trans there
      refine ⟨_, held, ?_⟩
      rw [handle?, handles, reads s rfl]
      simp
    · rw [made.renamed.names, if_pos rfl]

/-- Whatever is opened and closed in a directory, an end that was opened there made a pipe of its own, which stands
under its name exactly as long as no end of that name is opened or closed. Closing the end takes its name away and no
other; as long as its pipe stands, it can be reached. -/
theorem stands_until_touched (sound : h.Sound) (grounds : settings.Grounds home 0 h) (before after : List PipeCall)
    (call : PipeCall) (e : PipeEnd) (opened :
      ((run settings before { host := h }).perform settings call).ends = (run settings before { host := h }).ends ++ [e]) :
    let p := (run settings before { host := h }).perform settings call
    let number := (run settings before { host := h }).ends.length
    let last := run settings after p
    ∃ pipe, PipeAt p.host (home ++ [e.name]) pipe ∧
      (∀ place, (run settings before { host := h }).host.nodeOf? place ≠ some pipe) ∧
      (PipeAt last.host (home ++ [e.name]) pipe ↔ Untouched settings e.name after p) ∧
      ∀ e', last.ends[number]? = some e' → e'.isOpen = true →
        (∀ place, (last.perform settings (.close number)).host.nodeOf? place =
          if place = home ++ [e.name] then none else last.host.nodeOf? place) ∧
        (Untouched settings e.name after p → Reaches settings pipe last e') := by
  intro p number last
  have sited := (sited_start sound grounds).run before
  obtain ⟨tracks, stands⟩ := sited.opens opened
  have sited' := sited.perform call
  have tracks' := tracks.run sited' after
  have iff := tracks.stands_iff sited' after stands
  refine ⟨_, ⟨stands, tracks.content⟩, fun place at? => absurd (sited.sound.there at?) (Nat.lt_irrefl _),
    ⟨fun at? => iff.1 at?.1, fun untouched => ⟨iff.2 untouched, tracks'.content⟩⟩,
    fun e' there isOpen => ⟨fun place => ?_, fun untouched => ?_⟩⟩
  · obtain ⟨own, there', named⟩ := tracks'.named
    cases there.symm.trans there'
    have unused := (sited'.run after).unused e' (List.mem_of_getElem? there)
    obtain ⟨-, -, -, -, gone⟩ := close_gone (sited'.run after).sound (sited'.run after).grounds unused isOpen
    have closed : (last.perform settings (.close number)).host = (e'.close last.host).2 := by rw [perform, there]
    rw [closed, gone.renamed.names, named]
  · exact tracks'.reaches (sited'.run after) there isOpen (iff.2 untouched)

theorem sound_fresh : (Host.fresh []).Sound := .of_names (by decide) (by decide) (by decide)

theorem grounds_tmp : ({ directory := "tmp" } : PipeSettings).Grounds ["tmp"] 0 (Host.fresh []) := by
  have empty (name : String) : (Host.fresh []).content? (["tmp"] ++ [name]) = none := by
    rw [content?, node?_eq_none_of_names]
    · rfl
    · simp [Host.fresh, create, ensure]
  refine ⟨⟨by decide, by decide, by decide⟩, ⟨_, enter_of_plain ?_ (by decide) (by decide)⟩,
    ⟨⟨.directory, 0o777⟩, by decide, rfl, by decide⟩, fun name content _ found => ?_, Nat.zero_le _⟩
  · exact ⟨by decide, by decide, by decide, by decide, by decide⟩
  · rw [empty name] at found
    cases found

/-- Two servers are opened in turn and the first one is closed. -/
theorem stands_until_touched_reopened :
    let settings : PipeSettings := { directory := "tmp" }
    (Host.fresh []).Sound ∧ settings.Grounds ["tmp"] 0 (Host.fresh []) ∧
      ∃ e, ((run settings [] { host := Host.fresh [] }).perform settings .openServer).ends = [e] ∧
        let p := (run settings [] { host := Host.fresh [] }).perform settings .openServer
        let last := run settings [.openServer, .close 0] p
        ∃ pipe, PipeAt p.host (["tmp"] ++ [e.name]) pipe ∧ (∀ place, (Host.fresh []).nodeOf? place ≠ some pipe) ∧
          (PipeAt last.host (["tmp"] ++ [e.name]) pipe ↔ Untouched settings e.name [.openServer, .close 0] p) ∧
          ∀ e', last.ends[0]? = some e' → e'.isOpen = true →
            (∀ place, (last.perform settings (.close 0)).host.nodeOf? place =
              if place = ["tmp"] ++ [e.name] then none else last.host.nodeOf? place) ∧
            (Untouched settings e.name [.openServer, .close 0] p → Reaches settings pipe last e') := by
  intro settings
  have sound := sound_fresh
  have grounds := grounds_tmp
  obtain ⟨s, h', opened, -⟩ := openServer_made sound grounds
  have made : ((run settings [] { host := Host.fresh [] }).perform settings .openServer).ends = [.server s] := by
    rw [run, List.foldl_nil, perform, opened]
    rfl
  exact ⟨sound, grounds, .server s, made, stands_until_touched sound grounds [] [.openServer, .close 0] .openServer _ made⟩

/-- When the server that was opened first is closed, the one opened after it has lost its pipe, though it is open
still, and no client finds it. -/
theorem lost_when_older_closed :
    let settings : PipeSettings := { directory := "tmp" }
    let p := run settings [.openServer, .openServer, .close 0] { host := Host.fresh [] }
    (∃ s, p.ends[1]? = some (.server s) ∧ s.closed = false) ∧
      p.host.nodeOf? (["tmp"] ++ [PipeSettings.serverName]) = none ∧
      (PipeClient.connect settings p.host).1 = .error .serverNotRunning := by
  intro settings p
  have sited := sited_start sound_fresh grounds_tmp
  obtain ⟨s, h₁, opened, -, first, -⟩ := openServer_made sited.sound sited.grounds
  have one : perform settings .openServer { host := Host.fresh [] } = ⟨h₁, [.server s]⟩ := by
    rw [perform, opened]
    rfl
  have sited₁ : Sited settings ["tmp"] ⟨h₁, [.server s]⟩ := one ▸ sited.perform .openServer
  obtain ⟨t, h₂, opened', -, second, -⟩ := openServer_made sited₁.sound sited₁.grounds
  have two : perform settings .openServer ⟨h₁, [.server s]⟩ = ⟨h₂, [.server s, .server t]⟩ := by
    rw [perform, opened']
    rfl
  have sited₂ : Sited settings ["tmp"] ⟨h₂, [.server s, .server t]⟩ := two ▸ sited₁.perform .openServer
  have closed : p = ⟨((PipeEnd.server s).close h₂).2, [((PipeEnd.server s).close h₂).1, .server t]⟩ := by
    change run settings [.openServer, .openServer, .close 0] { host := Host.fresh [] } = _
    rw [run, List.foldl_cons, one, List.foldl_cons, two, List.foldl_cons, List.foldl_nil]
    rfl
  have unused := sited₂.unused (.server s) List.mem_cons_self
  obtain ⟨-, -, -, -, gone⟩ := close_gone sited₂.sound sited₂.grounds unused (by simp [PipeEnd.isOpen, first])
  have nobody : p.host.nodeOf? (["tmp"] ++ [PipeSettings.serverName]) = none := by
    rw [closed, gone.renamed.names]
    exact if_pos rfl
  refine ⟨⟨t, by rw [closed]; rfl, second⟩, nobody, ?_⟩
  have grounds : settings.Grounds ["tmp"] 0 p.host := by
    rw [closed]
    exact sited₂.grounds.later gone.renamed.later gone.renamed.calm
  have missing : p.host.openPath settings.serverPath .write false = (.error .noEntry, p.host) := by
    have found : p.host.find true settings.serverPath = _ := find_of_walk_none (grounds.walk (.inl rfl) true) nobody
    rw [Host.openPath, found]
  rw [PipeClient.connect, missing]
  rfl

end Pipes

end DiscCatalog
