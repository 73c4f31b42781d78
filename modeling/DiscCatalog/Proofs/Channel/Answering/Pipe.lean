import DiscCatalog.Proofs.Channel.Answering
import DiscCatalog.Proofs.Channel.PipeGrounds

namespace DiscCatalog

open Host

structure PipeServer.Attends (settings : PipeSettings) (home : Location) (gate : Nat) (waiting : List Message)
    (s : PipeServer) (h : Host) : Prop where
  serves : s.Serves settings
  line : OwnPipe (inboundPlace home) gate s.inbound waiting h
  reads : s.inbound.isSome
  usable : Usable gate h
  grounds : settings.Grounds home 1 h

def PipeClient.Joined (gate : Nat) (c : PipeClient) (h : Host) : Prop :=
  ∃ i x, c.toServer = some i ∧ h.handle? i = some x ∧ x.node = gate ∧ x.access = .write

structure PipeClient.Listens (settings : PipeSettings) (home : Location) (gate pipe : Nat) (waiting : List Message)
    (c : PipeClient) (h : Host) : Prop where
  keeps : c.Keeps settings home gate pipe waiting h
  joined : c.Joined gate h
  usable : Usable pipe h

structure PipeClient.Idle (settings : PipeSettings) (home : Location) (gate pipe : Nat) (c : PipeClient) (h : Host) :
    Prop where
  listens : c.Listens settings home gate pipe [] h
  bare : Laid pipe 0 h

theorem Message.length_le_length_frames (ms : List Message) : ms.length ≤ (ms.flatMap Message.frame).length := by
  induction ms with
  | nil => exact Nat.le_refl _
  | cons m rest ih =>
    obtain ⟨b, bs, frame⟩ := Message.frame_eq_cons m
    rw [List.flatMap_cons, List.length_append, frame, List.length_cons, List.length_cons]
    omega

section Pipes

variable {settings : PipeSettings} {home : Location} {gate pipe other k i j : Nat} {waiting rest : List Message}
  {m : Message} {s : PipeServer} {c d : PipeClient} {h h' h'' : Host} {x : Handle} {origin : UInt32}

namespace PipeClient

theorem Joined.spares (joined : c.Joined gate h) (spares : Spares gate h h') : c.Joined gate h' := by
  obtain ⟨i, x, holds, found, node, access⟩ := joined
  exact ⟨i, x, holds, (spares.handle i x node).2 found, node, access⟩

theorem Joined.of_handles (joined : c.Joined gate h) (handles : h'.handles = h.handles) : c.Joined gate h' := by
  unfold Joined handle?
  rw [handles]
  exact joined

theorem Joined.hasWriter (joined : c.Joined gate h) : h.hasWriter gate = true := by
  obtain ⟨i, x, -, found, node, access⟩ := joined
  exact hasWriter_iff.2 ⟨i, x, found, node, access⟩

theorem Joined.lt_nodes (joined : c.Joined gate h) (sound : h.Sound) : gate < h.nodes.length := by
  obtain ⟨i, x, -, found, node, -⟩ := joined
  exact node ▸ sound.held found

theorem Listens.spares (listens : c.Listens settings home gate pipe waiting h) (spares : Spares pipe h h')
    (calm : Calm h h') (joined : c.Joined gate h') : c.Listens settings home gate pipe waiting h' :=
  ⟨listens.keeps.spares spares, joined, listens.usable.calm calm⟩

theorem Listens.spared (listens : c.Listens settings home gate pipe waiting h) (steady : Steady other h h')
    (away : pipe ≠ other) : Spares pipe h h' :=
  steady.aloof.others listens.keeps.line.sound listens.keeps.line.lt_nodes away

theorem Listens.spared_gate (listens : d.Listens settings home gate other waiting h) (steady : Steady pipe h h')
    (apart : gate ≠ pipe) : Spares gate h h' :=
  steady.aloof.others listens.keeps.line.sound (listens.joined.lt_nodes listens.keeps.line.sound) apart

theorem Listens.steady_gate (listens : c.Listens settings home gate pipe waiting h) (steady : Steady gate h h')
    (handles : h'.handles = h.handles) : c.Listens settings home gate pipe waiting h' :=
  listens.spares (listens.spared steady listens.keeps.other) steady.calm (listens.joined.of_handles handles)

/-- What is done about one client's pipe does nothing to the others. -/
theorem Listens.steady (listens : d.Listens settings home gate other waiting h) (steady : Steady pipe h h')
    (away : other ≠ pipe) (apart : gate ≠ pipe) : d.Listens settings home gate other waiting h' :=
  listens.spares (listens.spared steady away) steady.calm (listens.joined.spares (listens.spared_gate steady apart))

/-- What is done about a client's own pipe leaves it joined to the server. -/
theorem Listens.own (listens : c.Listens settings home gate pipe waiting h) (steady : Steady pipe h h')
    (keeps : c.Keeps settings home gate pipe rest h') : c.Listens settings home gate pipe rest h' :=
  ⟨keeps, listens.joined.spares (listens.spared_gate steady listens.keeps.other.symm),
    listens.usable.calm steady.calm⟩

def Spared (settings : PipeSettings) (home : Location) (gate pipe : Nat) (h h' : Host) : Prop :=
  ∀ ⦃d other⦄, other ≠ pipe → Idle settings home gate other d h → Idle settings home gate other d h'

theorem Spared.trans (first : Spared settings home gate pipe h h') (second : Spared settings home gate pipe h' h'') :
    Spared settings home gate pipe h h'' := fun _ _ away idle => second away (first away idle)

theorem Idle.spares (idle : d.Idle settings home gate other h) (spares : Spares other h h') (calm : Calm h h')
    (joined : d.Joined gate h') : d.Idle settings home gate other h' :=
  ⟨idle.listens.spares spares calm joined, idle.bare.spares spares⟩

theorem spared_steady (steady : Steady pipe h h') (apart : gate ≠ pipe) : Spared settings home gate pipe h h' :=
  fun _ _ away idle => ⟨idle.listens.steady steady away apart, idle.bare.spares (idle.listens.spared steady away)⟩

theorem spared_gate (steady : Steady gate h h') (handles : h'.handles = h.handles) :
    Spared settings home gate pipe h h' :=
  fun _ _ _ idle => ⟨idle.listens.steady_gate steady handles,
    idle.bare.spares (idle.listens.spared steady idle.listens.keeps.other)⟩

theorem Idle.confined (idle : d.Idle settings home gate other h)
    (confined : Confined gate (replyPlace home origin) h h') (calm : Calm h h') (away : d.origin ≠ origin)
    (joined : d.Joined gate h') : d.Idle settings home gate other h' := by
  have line := idle.listens.keeps.line
  refine idle.spares (confined.others other line.lt_nodes fun within => ?_) calm joined
  exact within.elim idle.listens.keeps.other fun at? =>
    away (replyPlace_injective home (line.sound.apart at? line.name)).symm

theorem Listens.apart (listens : c.Listens settings home gate pipe waiting h)
    (listens' : d.Listens settings home gate other rest h) (away : d.origin ≠ c.origin) : other ≠ pipe := by
  rintro rfl
  have line := listens.keeps.line
  exact away (replyPlace_injective home (line.sound.apart listens'.keeps.line.name line.name))

end PipeClient

namespace PipeServer

theorem readFresh_nil (line : OwnPipe (inboundPlace home) gate (some i) [] h) :
    ∃ reopening, readFresh i s h = (none, { s with inbound := some i, reopening }, h) := by
  cases writes : h.hasWriter gate with
  | true => exact ⟨false, readFresh_waits (line.read_waits writes)⟩
  | false => exact ⟨true, readFresh_ended (line.read_ends writes)⟩

namespace Attends

theorem steady (attends : s.Attends settings home gate waiting h) (steady : Steady pipe h h')
    (away : gate ≠ pipe) : s.Attends settings home gate waiting h' where
  serves := attends.serves
  line := attends.line.spares (steady.aloof.others attends.line.sound attends.line.lt_nodes away)
  reads := attends.reads
  usable := attends.usable.calm steady.calm
  grounds := attends.grounds.later steady.aloof.later steady.calm

theorem again (attends : s.Attends settings home gate waiting h) (steady : Steady gate h h') (inbound : Option Nat)
    (reopening : Bool) (reads : inbound.isSome) (line : OwnPipe (inboundPlace home) gate inbound rest h') :
    PipeServer.Attends settings home gate rest { s with inbound, reopening } h' where
  serves := ⟨attends.serves.set, attends.serves.path, attends.serves.isOpen⟩
  line := line
  reads := reads
  usable := attends.usable.calm steady.calm
  grounds := attends.grounds.later steady.aloof.later steady.calm

theorem beside (attends : s.Attends settings home gate waiting h) (outbound : Option Nat) :
    PipeServer.Attends settings home gate waiting { s with outbound } h where
  serves := ⟨attends.serves.set, attends.serves.path, attends.serves.isOpen⟩
  line := attends.line
  reads := attends.reads
  usable := attends.usable
  grounds := attends.grounds

theorem poll_cons (attends : s.Attends settings home gate (m :: rest) h) (laid : Laid gate k h) :
    ∃ h', poll (s, h) = (some (.ok m), { s with reopening := false }, h') ∧
      PipeServer.Attends settings home gate rest { s with reopening := false } h' ∧ Laid gate k h' ∧
      Steady gate h h' ∧ h'.handles = h.handles := by
  obtain ⟨i, held⟩ := Option.isSome_iff_exists.1 attends.reads
  have line := attends.line
  rw [held] at line
  obtain ⟨b, bs, buffer, read, decoded, line'⟩ := line.read_message
  have steady := laid.steady_setContent line.sound buffer
  have left := laid.read i Frame.size
  rw [read] at left
  have polled : poll (s, h) = (some (.ok m), { s with reopening := false }, h.setContent gate (.pipe buffer)) := by
    have isOpen := attends.serves.isOpen
    obtain again | fresh := Bool.eq_false_or_eq_true s.reopening
    · rw [poll_reopening isOpen held again, readFresh_given read, decoded, ← held]
    · rw [poll_given isOpen held fresh read, decoded, ← fresh]
  exact ⟨_, polled, attends.again steady s.inbound false attends.reads (held ▸ line'), left, steady, rfl⟩

theorem poll_waits (attends : s.Attends settings home gate [] h) (writes : h.hasWriter gate = true) :
    poll (s, h) = (none, { s with reopening := false }, h) := by
  obtain ⟨i, held⟩ := Option.isSome_iff_exists.1 attends.reads
  have line := attends.line
  rw [held] at line
  have isOpen := attends.serves.isOpen
  obtain again | fresh := Bool.eq_false_or_eq_true s.reopening
  · rw [poll_reopening isOpen held again, readFresh_waits (line.read_waits writes), ← held]
  · rw [PipeServer.poll_waits isOpen held fresh (line.read_waits writes), ← fresh]

/-- Otherwise it opens the pipe anew. -/
theorem poll_alone (attends : s.Attends settings home gate [] h) (laid : Laid gate k h)
    (noWriter : h.hasWriter gate = false) :
    ∃ s' h', poll (s, h) = (none, s', h') ∧ s'.Attends settings home gate [] h' ∧ Laid gate k h' ∧
      s'.outbound = s.outbound := by
  obtain ⟨i, held⟩ := Option.isSome_iff_exists.1 attends.reads
  have line := attends.line
  rw [held] at line
  have isOpen := attends.serves.isOpen
  obtain again | fresh := Bool.eq_false_or_eq_true s.reopening
  · obtain ⟨reopening, waits⟩ := readFresh_nil (s := s) line
    rw [poll_reopening isOpen held again]
    exact ⟨_, h, waits, attends.again (.refl line.sound) _ reopening rfl line, laid, rfl⟩
  · have released := line.release noWriter
    have closing : Steady gate h (h.close i) := .close line.sound fun x found => by
      obtain ⟨y, found', node, -⟩ := line.reader i rfl
      cases found.symm.trans found'
      exact node
    have opened : (h.close i).openPath s.path .read false = (.ok (h.close i).handles.length,
        (h.close i).adding (some { node := gate, access := .read, blocking := false })) := by
      rw [attends.serves.path]
      exact (attends.grounds.later closing.aloof.later closing.calm).openPath (.inl rfl) released.pipeAt
        (attends.usable.calm closing.calm) rfl
    have anew := released.adding_reader (x := { node := gate, access := .read, blocking := true }) rfl rfl rfl
    have opening := closing.trans (.adding released.sound (x := { node := gate, access := .read, blocking := true })
      released.lt_nodes rfl)
    obtain ⟨reopening, waits⟩ := readFresh_nil (s := { s with inbound := none }) anew
    rw [poll_ended isOpen held fresh (line.read_ends noWriter), reopen_opened (s := { s with inbound := none }) opened]
    exact ⟨_, _, waits, attends.again opening _ reopening rfl anew, laid.close i, rfl⟩

theorem connect (attends : s.Attends settings home gate waiting h) :
    PipeClient.connect settings h = (.ok h.handles.length, h.adding (some (PipeClient.writing gate))) := by
  have meets : h.meets gate .write false = .ok () := if_pos (attends.line.hasReader_iff.2 attends.reads)
  have opened : h.openPath settings.serverPath .write false =
      (.ok h.handles.length, h.adding (some { node := gate, access := .write, blocking := false })) :=
    attends.grounds.openPath (.inl rfl) attends.line.pipeAt attends.usable meets
  exact PipeClient.connect_opened opened

end Attends

end PipeServer

namespace PipeClient.Listens

variable {replies : List Message}

theorem send (listens : c.Listens settings home gate pipe waiting h) (attends : s.Attends settings home gate [] h)
    (bare : Laid gate 0 h) (encodes : m.Encodes) (own : m.origin = c.origin) :
    ∃ h', PipeClient.send m (c, h) = (.ok (), c, h') ∧ s.Attends settings home gate [m] h' ∧ Laid gate 1 h' ∧
      Steady gate h h' ∧ h'.handles = h.handles := by
  obtain ⟨i, x, holds, found, node, -⟩ := listens.joined
  have room : ¬ h.pipePages ≤ 0 := Nat.not_le_of_lt attends.grounds.room
  obtain ⟨b, wrote, line, more⟩ := (attends.line.write_laid found node encodes bare).resolve_right fun full => room full.1
  have steady := bare.steady_setContent attends.line.sound b
  refine ⟨_, ?_, attends.again steady s.inbound s.reopening attends.reads line, more, steady, rfl⟩
  have stamped : stampedFrame c.origin m = .ok m.frame := own ▸ stampedFrame_of_encodes encodes
  rw [send_written holds stamped, writeFrame, wrote]
  rfl

theorem replyBegin (listens : c.Listens settings home gate pipe waiting h) (grounds : settings.Grounds home 1 h)
    (laid : Laid pipe k h) :
    ∃ c' i h', PipeClient.replyBegin (c, h) = (.ok (), c', h') ∧ c'.Listens settings home gate pipe waiting h' ∧
      c'.reader = some i ∧ c'.origin = c.origin ∧ c'.toServer = c.toServer ∧ Laid pipe k h' ∧ Steady pipe h h' := by
  have keeps := listens.keeps
  cases reads : c.reader with
  | some i =>
    have writes : c.writer.isSome := by rw [← keeps.both, reads]; rfl
    have both : c.reader.isSome ∧ c.writer.isSome := ⟨by rw [reads]; rfl, writes⟩
    exact ⟨c, i, h, replyBegin_again keeps.isOpen both, listens, reads, rfl, rfl, laid, .refl keeps.line.sound⟩
  | none =>
    have first : Steady pipe h (h.adding (some { node := pipe, access := .read, blocking := false })) :=
      .adding keeps.line.sound keeps.line.lt_nodes rfl
    have grounds' := grounds.later first.aloof.later first.calm
    have reader :
        (h.adding (some { node := pipe, access := .read, blocking := false })).meets pipe .write true = .ok () :=
      if_pos (hasReader_iff.2 ⟨_, _, handle?_adding _, rfl, rfl⟩)
    have opened : h.openPath c.path .read false =
        (.ok h.handles.length, h.adding (some { node := pipe, access := .read, blocking := false })) := by
      rw [keeps.path]
      exact grounds.openPath (.inr ⟨c.origin, rfl⟩) keeps.line.pipeAt listens.usable rfl
    have stands : PipeAt (h.adding (some { node := pipe, access := .read, blocking := false }))
        (replyPlace home c.origin) pipe := keeps.line.pipeAt
    have opened' := grounds'.openPath (.inr ⟨c.origin, rfl⟩) stands (listens.usable.calm first.calm) reader
    have last : (h.adding (some { node := pipe, access := .read, blocking := false })).handles.length =
        h.handles.length + 1 := by simp [adding]
    obtain ⟨-, begun⟩ := keeps.begun reads
    have steady : Steady pipe h ((h.adding (some (reading pipe))).adding (some (writing pipe))) :=
      have reading : Steady pipe h (h.adding (some (reading pipe))) := .adding keeps.line.sound keeps.line.lt_nodes rfl
      reading.trans (.adding reading.aloof.later.sound keeps.line.lt_nodes rfl)
    refine ⟨_, _, _, ?_, ⟨begun, ?_, listens.usable.calm steady.calm⟩, rfl, rfl, rfl, laid, steady⟩
    · rw [last] at opened'
      have same : c.path = joinPath settings.directory (PipeSettings.clientName c.origin) := keeps.path
      rw [← same] at opened'
      have anew : ¬ (c.reader.isSome ∧ c.writer.isSome) := by simp [reads]
      rw [replyBegin_opened keeps.isOpen anew opened opened', makeBlocking_adding_adding]
    · obtain ⟨i, x, holds, found, on⟩ := listens.joined
      exact ⟨i, x, holds, handle?_adding_iff.2 (.inl (handle?_adding_iff.2 (.inl found))), on⟩

theorem backlog (listens : c.Listens settings home gate pipe replies h) (reads : c.reader = some i) :
    replies.length ≤ PipeClient.backlog (c, h) := by
  obtain ⟨b, content, frames⟩ := listens.keeps.line.buffer
  obtain ⟨x, found, node, -⟩ := listens.keeps.line.reader i reads
  rw [PipeClient.backlog]
  simp only [reads, Option.bind_some, found, node, content, frames]
  exact Message.length_le_length_frames replies

end PipeClient.Listens

namespace PipeClient

/-- A client that is let in and listens; what happens meanwhile does nothing to clients with other origins. -/
theorem openOn_idle (attends : s.Attends settings home gate [] h) (bare : Laid gate 0 h) (origin : UInt32) :
    ∃ c pipe h', openOn settings origin h = (.ok c, h') ∧ c.origin = origin ∧ c.toServer = some h.handles.length ∧
      c.Idle settings home gate pipe h' ∧ s.Attends settings home gate [] h' ∧ Laid gate 0 h' ∧
      ∀ ⦃d other⦄, d.origin ≠ origin → Idle settings home gate other d h → Idle settings home gate other d h' := by
  have line := attends.line
  have leads := attends.grounds.leads
  have came := openOn_came (.of_own line leads) origin
  have kept := openOn_keeps line leads origin
  have joining : Steady gate h (h.adding (some (writing gate))) := .adding line.sound line.lt_nodes rfl
  obtain ⟨h₁, -, calm, nodes, handles, free, replaced⟩ :=
    (attends.grounds.later joining.aloof.later joining.calm).replacePipe joining.aloof.later.sound (.inr ⟨origin, rfl⟩)
  have made : openOn settings origin h =
      (.ok { origin, path := settings.clientPath origin, toServer := some h.handles.length },
        h₁.create (replyPlace home origin) ⟨.pipe {}, grant settings.permissions.toNat⟩) := by
    have replaced : replacePipe (settings.clientPath origin) settings.permissions _ = _ := replaced
    exact openOn_made attends.connect replaced
  rw [made] at came kept
  obtain ⟨-, -, pipe, keeps⟩ := came.opened _ rfl
  obtain ⟨line', later, -⟩ := kept
  have name := keeps.line.name
  rw [nodeOf?_create_self free] at name
  cases name
  have whole := joining.calm.trans (calm.trans (calm_create free ⟨.pipe {}, grant settings.permissions.toNat⟩))
  have newcomer : (h₁.create (replyPlace home origin) ⟨.pipe {}, grant settings.permissions.toNat⟩).handle?
      h.handles.length = some (writing gate) := by
    change h₁.handles[h.handles.length]?.join = _
    rw [handles]
    exact handle?_adding _
  have others : ∀ i x, h.handle? i = some x →
      (h₁.create (replyPlace home origin) ⟨.pipe {}, grant settings.permissions.toNat⟩).handle? i = some x := by
    intro i x found
    change h₁.handles[i]?.join = _
    rw [handles]
    exact handle?_adding_iff.2 (.inl found)
  refine ⟨_, _, _, made, rfl, rfl, ⟨⟨keeps, ⟨_, _, rfl, newcomer, rfl, rfl⟩, ?_⟩, ?_⟩,
    ⟨attends.serves, line', attends.reads, attends.usable.calm whole, attends.grounds.later later whole⟩,
    (bare.of_nodes nodes).create _ _, fun d other away idle => idle.confined came.confined whole away ?_⟩
  · exact usable_create (grant_owned attends.grounds.proper.owned)
  · exact ⟨{}, by simp [contentOf?, create], PipeBuffer.laid_empty 0⟩
  · obtain ⟨i, x, holds, found, on⟩ := idle.listens.joined
    exact ⟨i, x, holds, others i x found, on⟩

namespace Idle

theorem attached (idle : c.Idle settings home gate pipe h) (leads : Leads settings home h) :
    c.Attached settings home gate h := by
  have keeps := idle.listens.keeps
  refine ⟨keeps.path, fun place walked target => ?_, fun i held => ?_, fun i held => ?_, fun i held => ?_⟩
  · rw [leads.place_eq (PipeSettings.plainName_clientName c.origin) (fun follow => by cases follow) walked]
    exact keeps.line.pipeAt.noLink target
  · obtain ⟨j, x, holds, found, on⟩ := idle.listens.joined
    cases holds.symm.trans held
    exact ⟨lt_of_handle? found, fun y found' => by cases found.symm.trans found'; exact on⟩
  · obtain ⟨x, found, node, -⟩ := keeps.line.reader i held
    exact ⟨lt_of_handle? found, fun y found' => by cases found.symm.trans found'; exact node ▸ keeps.other⟩
  · obtain ⟨x, found, node, -⟩ := keeps.writer i held
    exact ⟨lt_of_handle? found, fun y found' => by cases found.symm.trans found'; exact node ▸ keeps.other⟩

theorem close (idle : c.Idle settings home gate pipe h) (attends : s.Attends settings home gate [] h)
    (bare : Laid gate 0 h) :
    ∃ c' h', PipeClient.close (c, h) = (c', h') ∧ c'.origin = c.origin ∧ c'.closed = true ∧ c'.toServer = none ∧
      s.Attends settings home gate [] h' ∧ Laid gate 0 h' ∧
      ∀ ⦃d other⦄, d.origin ≠ c.origin → d.toServer ≠ c.toServer → Idle settings home gate other d h →
        Idle settings home gate other d h' := by
  have line := attends.line
  have leads := attends.grounds.leads
  have attached := idle.attached leads
  obtain ⟨gone, confined, -, -⟩ := idle.listens.keeps.leave (.of_own line leads)
  obtain ⟨line', later⟩ := close_keeps line leads attached
  have spares := close_spares line leads attached idle.listens.keeps.isOpen
  have calm := attends.grounds.calm_close line.sound idle.listens.keeps.isOpen idle.listens.keeps.path
  have attends' : s.Attends settings home gate [] (PipeClient.close (c, h)).2 :=
    ⟨attends.serves, line', attends.reads, attends.usable.calm calm, attends.grounds.later later calm⟩
  have bare' : Laid gate 0 (PipeClient.close (c, h)).2 := (bare.closeHeld c.toServer).spares spares
  refine ⟨_, _, Prod.ext gone rfl, rfl, rfl, rfl, attends', bare', fun d other away apart idle' => ?_⟩
  refine idle'.confined confined calm away (Joined.spares ?_ spares)
  -- The other has the server's pipe open by a handle of its own.
  obtain ⟨i, x, holds, found, on⟩ := idle'.listens.joined
  refine ⟨i, x, holds, ?_, on⟩
  cases held : c.toServer with
  | none => exact found
  | some j =>
    have differ : i ≠ j := by
      rintro rfl
      exact apart (holds.trans held.symm)
    rw [closeHeld, handle?_close, if_neg differ, found]

end Idle

end PipeClient

end Pipes

namespace PipeServer

def Holds (pipe : Nat) (c : PipeClient) (s : PipeServer) (h : Host) : (sending : Bool) → Prop
  | true => ∃ j, s.outbound = some j ∧ c.writer ≠ some j ∧ h.handle? j = some (PipeClient.writing pipe)
  | false => s.outbound = none

/-- A server that answers one client, in whose pipe these replies wait. -/
structure Replying (settings : PipeSettings) (home : Location) (gate pipe : Nat) (sending : Bool) (unread : List Message)
    (c : PipeClient) (s : PipeServer) (h : Host) : Prop where
  attends : s.Attends settings home gate [] h
  bare : Laid gate 0 h
  listens : c.Listens settings home gate pipe unread h
  laid : ∃ k, Laid pipe k h
  reads : c.reader.isSome
  holds : Holds pipe c s h sending

/-- A server and its clients between which nothing is on its way. -/
structure Rests (settings : PipeSettings) (home : Location) (gate : Nat) (cs : List PipeClient) (s : PipeServer)
    (h : Host) : Prop where
  attends : s.Attends settings home gate [] h
  quiet : s.outbound = none
  bare : Laid gate 0 h
  idle : ∀ c ∈ cs, ∃ pipe, c.Idle settings home gate pipe h
  apart : cs.Pairwise fun c d => d.origin ≠ c.origin ∧ d.toServer ≠ c.toServer

/-- A server that answers one of its clients. -/
structure Replies (settings : PipeSettings) (home : Location) (gate : Nat) (sending : Bool) (unread : List Message)
    (c : PipeClient) (cs : List PipeClient) (s : PipeServer) (h : Host) : Prop where
  replying : ∃ pipe, Replying settings home gate pipe sending unread c s h
  idle : ∀ d ∈ cs, ∃ other, d.Idle settings home gate other h
  apart : (c :: cs).Pairwise fun c d => d.origin ≠ c.origin ∧ d.toServer ≠ c.toServer

section Replying

open PipeClient

variable {settings : PipeSettings} {home : Location} {gate pipe i k : Nat} {sending : Bool} {unread : List Message}
  {m r : Message} {c : PipeClient} {s : PipeServer} {h : Host}

theorem replyBegin_listens (listens : c.Listens settings home gate pipe [] h) (attends : s.Attends settings home gate [] h)
    (quiet : s.outbound = none) (bare : Laid gate 0 h) (bare' : Laid pipe 0 h) (reads : c.reader.isSome) :
    ∃ s' h', replyBegin c.origin (s, h) = (.ok (), s', h') ∧ Replying settings home gate pipe true [] c s' h' ∧
      Steady pipe h h' := by
  obtain ⟨i, reader⟩ := Option.isSome_iff_exists.1 reads
  have line := listens.keeps.line
  have apart : gate ≠ pipe := listens.keeps.other.symm
  have meets : h.meets pipe .write true = .ok () := if_pos (line.hasReader_iff.2 reads)
  have opened : h.openPath (settings.clientPath c.origin) .write true =
      (.ok h.handles.length, h.adding (some (writing pipe))) :=
    attends.grounds.openPath (.inr ⟨c.origin, rfl⟩) line.pipeAt listens.usable meets
  have begun : replyBegin c.origin (s, h) =
      (.ok (), { s with outbound := some h.handles.length }, h.adding (some (writing pipe))) := by
    rw [← attends.serves.set] at opened
    rw [replyBegin_opened attends.serves.isOpen opened, quiet, closeHeld]
  have opening : Steady pipe h (h.adding (some (writing pipe))) := .adding line.sound line.lt_nodes rfl
  refine ⟨_, _, begun, ⟨(attends.steady opening apart).beside _, bare.spares (listens.spared_gate opening apart),
    listens.own opening (listens.keeps.adding_writer reader), ⟨0, bare'⟩, reads, h.handles.length, rfl, fun same => ?_,
    handle?_adding _⟩, opening⟩
  -- What the client writes by itself was open before.
  obtain ⟨x, found, -⟩ := listens.keeps.writer _ same
  exact Nat.lt_irrefl _ (lt_of_handle? found)

namespace Replying

theorem setContent {rest : List Message} {b : PipeBuffer}
    (replying : Replying settings home gate pipe sending unread c s h)
    (line : OwnPipe (replyPlace home c.origin) pipe c.reader rest (h.setContent pipe (.pipe b)))
    (laid : Laid pipe k (h.setContent pipe (.pipe b))) :
    Replying settings home gate pipe sending rest c s (h.setContent pipe (.pipe b)) ∧
      Steady pipe h (h.setContent pipe (.pipe b)) := by
  obtain ⟨k', laid'⟩ := replying.laid
  have apart : gate ≠ pipe := replying.listens.keeps.other.symm
  have steady := laid'.steady_setContent replying.listens.keeps.line.sound b
  refine ⟨⟨replying.attends.steady steady apart, replying.bare.spares (replying.listens.spared_gate steady apart),
    replying.listens.own steady (replying.listens.keeps.setContent line), ⟨k, laid⟩, replying.reads, ?_⟩, steady⟩
  cases sending with
  | true => exact replying.holds
  | false => exact replying.holds

/-- A reply goes behind the others, or has to wait until the client has read some of them. -/
theorem replySend (replying : Replying settings home gate pipe true unread c s h) (encodes : r.Encodes) :
    (∃ h', replySend r (s, h) = (.ok (), s, h') ∧ Replying settings home gate pipe true (unread ++ [r]) c s h' ∧
      Steady pipe h h') ∨
    unread ≠ [] ∧ PipeServer.replySend r (s, h) = (.error .interrupted, s, h) := by
  obtain ⟨j, holds, -, found⟩ := replying.holds
  obtain ⟨k, laid⟩ := replying.laid
  have line := replying.listens.keeps.line
  obtain ⟨b, wrote, line', laid'⟩ | ⟨full, waits⟩ := line.write_laid found rfl encodes laid
  · obtain ⟨replying', steady⟩ := replying.setContent line' laid'
    refine .inl ⟨_, ?_, replying', steady⟩
    rw [replySend_written holds (Message.encode_of_encodes encodes), writeFrame, wrote]
    rfl
  · refine .inr ⟨?_, ?_⟩
    · rintro rfl
      obtain ⟨b, wrote, -⟩ | ⟨none, -⟩ := line.write_laid found rfl encodes (line.bare_of_laid laid)
      · cases wrote.symm.trans waits
      · exact absurd replying.attends.grounds.room (Nat.not_le_of_lt (Nat.lt_succ_of_le none))
    · rw [replySend_written holds (Message.encode_of_encodes encodes), writeFrame, waits]
      rfl

theorem replyEnd (replying : Replying settings home gate pipe true unread c s h) :
    Replying settings home gate pipe false unread c (replyEnd (s, h)).1 (PipeServer.replyEnd (s, h)).2 ∧
      Steady pipe h (PipeServer.replyEnd (s, h)).2 := by
  obtain ⟨j, holds, other, found⟩ := replying.holds
  obtain ⟨k, laid⟩ := replying.laid
  have apart : gate ≠ pipe := replying.listens.keeps.other.symm
  have written : ∀ x, h.handle? j = some x → x = writing pipe := fun x found' => by
    cases found.symm.trans found'
    rfl
  have closing : Steady pipe h (h.close j) := .close replying.listens.keeps.line.sound fun x found =>
    congrArg Handle.node (written x found)
  have ended : PipeServer.replyEnd (s, h) = ({ s with outbound := none }, h.close j) := by
    rw [PipeServer.replyEnd, holds, closeHeld]
  rw [ended]
  have keeps := replying.listens.keeps.close (fun x found => congrArg Handle.access (written x found)) other
  exact ⟨⟨(replying.attends.steady closing apart).beside none,
    replying.bare.spares (replying.listens.spared_gate closing apart), replying.listens.own closing keeps, ⟨k, laid.close j⟩, replying.reads, rfl⟩, closing⟩

theorem read (replying : Replying settings home gate pipe sending (r :: unread) c s h) :
    ∃ h', PipeClient.replyReceive (c, h) = (.ok r, c, h') ∧ Replying settings home gate pipe sending unread c s h' ∧
      Steady pipe h h' := by
  obtain ⟨i, reads⟩ := Option.isSome_iff_exists.1 replying.reads
  obtain ⟨k, laid⟩ := replying.laid
  have line := replying.listens.keeps.line
  rw [reads] at line
  obtain ⟨b, bs, buffer, read, decoded, line'⟩ := line.read_message
  have laid' := laid.read i Frame.size
  rw [read] at laid'
  rw [← reads] at line'
  obtain ⟨replying', steady⟩ := replying.setContent line' laid'
  refine ⟨_, ?_, replying', steady⟩
  rw [replyReceive_given reads read, decoded]

theorem idle (replying : Replying settings home gate pipe sending [] c s h) : c.Idle settings home gate pipe h := by
  obtain ⟨k, laid⟩ := replying.laid
  exact ⟨replying.listens, replying.listens.keeps.line.bare_of_laid laid⟩

end Replying

end Replying

variable {settings : PipeSettings} {home : Location} {gate : Nat} {c : PipeClient} {cs ds : List PipeClient}
  {s : PipeServer} {h : Host} {origin : UInt32} {sending : Bool} {unread : List Message} {r : Message}

namespace Rests

theorem perm (rests : Rests settings home gate cs s h) (same : cs.Perm ds) : Rests settings home gate ds s h where
  attends := rests.attends
  quiet := rests.quiet
  bare := rests.bare
  idle c there := rests.idle c (same.mem_iff.2 there)
  apart := (same.pairwise_iff fun apart => ⟨apart.1.symm, apart.2.symm⟩).1 rests.apart

theorem openClient (rests : Rests settings home gate cs s h) (fresh : ∀ c ∈ cs, c.origin ≠ origin) :
    ∃ c h', PipeClient.openOn settings origin h = (.ok c, h') ∧ c.origin = origin ∧ c.closed = false ∧
      Rests settings home gate (c :: cs) s h' := by
  obtain ⟨c, pipe, h', opened, same, toServer, idle, attends, bare, others⟩ :=
    PipeClient.openOn_idle rests.attends rests.bare origin
  refine ⟨c, h', opened, same, idle.listens.keeps.isOpen, attends, rests.quiet, bare,
    List.forall_mem_cons.2 ⟨⟨pipe, idle⟩, ?_⟩,
    List.pairwise_cons.2 ⟨fun d there => ⟨same ▸ fresh d there, ?_⟩, rests.apart⟩⟩
  · intro d there
    obtain ⟨other, idle⟩ := rests.idle d there
    exact ⟨other, others (fresh d there) idle⟩
  · obtain ⟨other, idle⟩ := rests.idle d there
    obtain ⟨i, x, holds, found, -⟩ := idle.listens.joined
    rw [holds, toServer]
    rintro ⟨⟩
    exact Nat.lt_irrefl _ (lt_of_handle? found)

theorem closeClient (rests : Rests settings home gate (c :: cs) s h) :
    ∃ c' h', PipeClient.close (c, h) = (c', h') ∧ c'.origin = c.origin ∧ c'.closed = true ∧ c'.toServer = none ∧
      Rests settings home gate cs s h' := by
  obtain ⟨⟨pipe, idle⟩, rest⟩ := List.forall_mem_cons.1 rests.idle
  obtain ⟨apart, pairwise⟩ := List.pairwise_cons.1 rests.apart
  obtain ⟨c', h', closed, origin, isClosed, none, attends, bare, others⟩ := idle.close rests.attends rests.bare
  refine ⟨c', h', closed, origin, isClosed, none, attends, rests.quiet, bare, fun d there => ?_, pairwise⟩
  obtain ⟨other, idle⟩ := rest d there
  exact ⟨other, others (apart d there).1 (apart d there).2 idle⟩

/-- A server goes on waiting, on a pipe opened anew if no client is left. -/
theorem wait (rests : Rests settings home gate cs s h) :
    ∃ s' h', poll (s, h) = (none, s', h') ∧ Rests settings home gate cs s' h' := by
  cases writes : h.hasWriter gate with
  | true =>
    have attends := rests.attends
    exact ⟨_, h, attends.poll_waits writes,
      attends.again (.refl attends.line.sound) s.inbound false attends.reads attends.line, rests.quiet, rests.bare,
      rests.idle, rests.apart⟩
  | false =>
    have nobody : cs = [] := List.eq_nil_iff_forall_not_mem.2 fun c there => by
      obtain ⟨pipe, idle⟩ := rests.idle c there
      exact Bool.false_ne_true (writes.symm.trans idle.listens.joined.hasWriter)
    subst nobody
    obtain ⟨s', h', waits, attends, bare, quiet⟩ := rests.attends.poll_alone rests.bare writes
    exact ⟨s', h', waits, attends, quiet.trans rests.quiet, bare, by simp, .nil⟩

/-- A client asks, the server takes its request and opens the client's pipe. -/
theorem ask {m : Message} (rests : Rests settings home gate (c :: cs) s h) (encodes : m.Encodes) (own : m.origin = c.origin) :
    ∃ c' h₁ h₂ s₃ h₃ s₄ h₄, PipeClient.send m (c, h) = (.ok (), c, h₁) ∧
      PipeClient.replyBegin (c, h₁) = (.ok (), c', h₂) ∧ poll (s, h₂) = (some (.ok m), s₃, h₃) ∧
      replyBegin m.origin (s₃, h₃) = (.ok (), s₄, h₄) ∧ c'.origin = c.origin ∧ c'.closed = false ∧
      Replies settings home gate true [] c' cs s₄ h₄ := by
  obtain ⟨⟨pipe, idle⟩, rest⟩ := List.forall_mem_cons.1 rests.idle
  obtain ⟨apart, pairwise⟩ := List.pairwise_cons.1 rests.apart
  have away : gate ≠ pipe := idle.listens.keeps.other.symm
  obtain ⟨h₁, sent, attends₁, laid₁, sending, handles⟩ := idle.listens.send rests.attends rests.bare encodes own
  have listens₁ := idle.listens.steady_gate sending handles
  have bare₁ := idle.bare.spares (idle.listens.spared sending idle.listens.keeps.other)
  obtain ⟨c', i, h₂, begun, listens₂, reads, origin, toServer, bare₂, beginning⟩ :=
    listens₁.replyBegin attends₁.grounds bare₁
  have attends₂ := attends₁.steady beginning away
  have laid₂ := laid₁.spares (listens₁.spared_gate beginning away)
  obtain ⟨h₃, polled, attends₃, laid₃, taking, handles₃⟩ := attends₂.poll_cons laid₂
  have listens₃ := listens₂.steady_gate taking handles₃
  have bare₃ := bare₂.spares (listens₂.spared taking listens₂.keeps.other)
  obtain ⟨s₄, h₄, answers, replying, opening⟩ := replyBegin_listens listens₃ attends₃ rests.quiet
    (attends₃.line.bare_of_laid laid₃) bare₃ (by rw [reads]; rfl)
  have spared : PipeClient.Spared settings home gate pipe h h₄ :=
    (PipeClient.spared_gate sending handles).trans ((PipeClient.spared_steady beginning away).trans
      ((PipeClient.spared_gate taking handles₃).trans (PipeClient.spared_steady opening away)))
  refine ⟨c', h₁, h₂, _, h₃, s₄, h₄, sent, begun, polled, ?_, origin, replying.listens.keeps.isOpen, ⟨pipe, replying⟩,
    fun d there => ?_, List.pairwise_cons.2 ⟨?_, pairwise⟩⟩
  · rw [own, ← origin]
    exact answers
  · obtain ⟨other, other_idle⟩ := rest d there
    exact ⟨other, spared (idle.listens.apart other_idle.listens (apart d there).1) other_idle⟩
  · rw [origin, toServer]
    exact apart

end Rests

namespace Replies

theorem steady {pipe : Nat} {s' : PipeServer} {h' : Host} {sending' : Bool} {unread' : List Message}
    (replies : Replies settings home gate sending unread c cs s h)
    (replying : Replying settings home gate pipe sending unread c s h)
    (replying' : Replying settings home gate pipe sending' unread' c s' h') (steady : Steady pipe h h') :
    Replies settings home gate sending' unread' c cs s' h' where
  replying := ⟨pipe, replying'⟩
  idle d there := by
    obtain ⟨other, idle⟩ := replies.idle d there
    have apart := (List.pairwise_cons.1 replies.apart).1 d there
    exact ⟨other, PipeClient.spared_steady steady replying.listens.keeps.other.symm
      (replying.listens.apart idle.listens apart.1) idle⟩
  apart := replies.apart

theorem wait (replies : Replies settings home gate false unread c cs s h) :
    ∃ s', poll (s, h) = (none, s', h) ∧ Replies settings home gate false unread c cs s' h := by
  obtain ⟨pipe, replying⟩ := replies.replying
  have attends := replying.attends
  exact ⟨_, attends.poll_waits replying.listens.joined.hasWriter,
    ⟨pipe, attends.again (.refl attends.line.sound) s.inbound false attends.reads attends.line, replying.bare,
      replying.listens, replying.laid, replying.reads, replying.holds⟩, replies.idle, replies.apart⟩

theorem rests (replies : Replies settings home gate false [] c cs s h) : Rests settings home gate (c :: cs) s h where
  attends := replies.replying.choose_spec.attends
  quiet := replies.replying.choose_spec.holds
  bare := replies.replying.choose_spec.bare
  idle := List.forall_mem_cons.2 ⟨⟨_, replies.replying.choose_spec.idle⟩, replies.idle⟩
  apart := replies.apart

end Replies

def answering (settings : PipeSettings) (home : Location) (gate : Nat) : (Medium.pipes settings).Answering where
  origin := PipeClient.origin
  closed c := c.closed && c.toServer.isNone
  Rests := Rests settings home gate
  Replies := Replies settings home gate
  origin_eq _ _ := rfl
  perm := Rests.perm
  opens rests _ fresh := by
    obtain ⟨c, h', opened, same, isOpen, rests⟩ := rests.openClient fresh
    exact ⟨c, h', opened, same, by rw [isOpen]; rfl, rests⟩
  closes rests := by
    obtain ⟨c', h', closed, same, isClosed, none, rests⟩ := rests.closeClient
    exact ⟨c', h', closed, same, by rw [isClosed, none]; rfl, rests⟩
  gone {c} h closed := by
    rw [Bool.and_eq_true] at closed
    exact PipeClient.close_closed closed.1
  refuses {c} asked h closed := by
    rw [Bool.and_eq_true, Option.isNone_iff_eq_none] at closed
    exact PipeClient.send_closed closed.2
  misfits {c cs s h asked fault} rests misfit := by
    obtain ⟨pipe, idle⟩ := (List.forall_mem_cons.1 rests.idle).1
    obtain ⟨i, x, holds, -⟩ := idle.listens.joined
    exact PipeClient.send_misfit holds (stampedFrame_of_misfit c.origin misfit)
  idles rests := by
    obtain ⟨s', h', waits, rests⟩ := rests.wait
    exact ⟨s', h', by simp only [Medium.waiting, Medium.pipes, waits], rests⟩
  asks rests encodes own := by
    obtain ⟨c', h₁, h₂, s₃, h₃, s₄, h₄, sent, listens, polled, begun, same, isOpen, replies⟩ := rests.ask encodes own
    exact ⟨_, c', h₂, s₃, h₃, s₄, h₄, sent, listens, by simp only [Medium.waiting, Medium.pipes, polled], begun, same,
      by rw [isOpen]; rfl, replies⟩
  sends {unread c cs s h r} replies encodes own := by
    obtain ⟨pipe, replying⟩ := replies.replying
    obtain ⟨h', sent, replying', steady⟩ | full := replying.replySend encodes
    · exact .inl ⟨s, h', sent, replies.steady replying replying' steady⟩
    · exact .inr full
  ends replies := by
    obtain ⟨pipe, replying⟩ := replies.replying
    obtain ⟨replying', steady⟩ := replying.replyEnd
    exact replies.steady replying replying' steady
  waits {unread c cs s h} replies := by
    obtain ⟨s', waits, replies⟩ := replies.wait
    exact ⟨s', h, by simp only [Medium.waiting, Medium.pipes, waits], replies⟩
  reads replies := by
    obtain ⟨pipe, replying⟩ := replies.replying
    obtain ⟨h', read, replying', steady⟩ := replying.read
    exact ⟨h', read, replies.steady replying replying' steady⟩
  backlog replies := by
    obtain ⟨pipe, replying⟩ := replies.replying
    obtain ⟨i, reads⟩ := Option.isSome_iff_exists.1 replying.reads
    exact replying.listens.backlog reads
  replyEnd_eq _ := rfl
  rests := Replies.rests

end PipeServer

end DiscCatalog
