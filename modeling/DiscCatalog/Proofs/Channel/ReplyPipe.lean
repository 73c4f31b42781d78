import DiscCatalog.Proofs.Channel.NamedPipe
import DiscCatalog.Proofs.Host.Confined

namespace DiscCatalog

open Host

abbrev replyPlace (home : Location) (origin : UInt32) : Location := home ++ [PipeSettings.clientName origin]

theorem replyPlace_injective (home : Location) : Function.Injective (replyPlace home) := by
  intro o p same
  exact PipeSettings.clientName_injective (List.cons.inj (List.append_cancel_left same)).1

theorem replyPlace_ne_inboundPlace (home : Location) (origin : UInt32) : replyPlace home origin ≠ inboundPlace home := by
  intro same
  exact PipeSettings.clientName_ne_serverName origin (List.cons.inj (List.append_cancel_left same)).1

/-- A pipe that nobody reads. -/
def Unread (n : Nat) (h : Host) : Prop := (∃ b, h.contentOf? n = some (.pipe b)) ∧ h.hasReader n = false

namespace Unread

variable {n i : Nat} {h h' : Host} {x : Handle}

theorem iff_handles : h.hasReader n = false ↔ ∀ i x, h.handle? i = some x → x.node = n → x.access ≠ .read := by
  rw [Bool.eq_false_iff, ne_eq, Host.hasReader_iff]
  simp only [not_exists, not_and, ne_eq]

theorem lt_nodes (unread : Unread n h) : n < h.nodes.length := by
  obtain ⟨⟨b, content⟩, -⟩ := unread
  obtain ⟨node, there, -⟩ := Option.map_eq_some_iff.1 content
  exact (List.getElem?_eq_some_iff.1 there).1

theorem spares (unread : Unread n h) (spares : Spares n h h') : Unread n h' := by
  obtain ⟨content, nobody⟩ := unread
  rw [iff_handles] at nobody
  refine ⟨by rw [spares.content]; exact content, iff_handles.2 fun i x held node => ?_⟩
  exact nobody i x ((spares.handle i x node).1 held) node

theorem adding (unread : Unread n h) (away : x.node = n → x.access = .write) : Unread n (h.adding (some x)) := by
  obtain ⟨content, nobody⟩ := unread
  rw [iff_handles] at nobody
  refine ⟨content, iff_handles.2 fun i y held node => ?_⟩
  obtain old | ⟨-, same⟩ := handle?_adding_iff.1 held
  · exact nobody i y old node
  · cases same
    rw [away node]
    exact fun read => by cases read

theorem content_close (stands : ∃ b, h.contentOf? n = some (.pipe b)) (i : Nat) :
    ∃ b, (h.close i).contentOf? n = some (.pipe b) := by
  obtain ⟨b, content⟩ := stands
  cases held : h.handle? i with
  | none => exact ⟨b, by rw [close_of_none held, content]⟩
  | some x =>
    obtain same | ⟨-, -, same⟩ := close_eq held
    · exact ⟨b, by rw [same]; exact content⟩
    · by_cases on : x.node = n
      · subst on
        refine ⟨{}, ?_⟩
        rw [same, contentOf?_setContent]
        change (h.contentOf? x.node).map _ = _
        rw [content]
        rfl
      · exact ⟨b, by rw [same, contentOf?_setContent_ne (Ne.symm on)]; exact content⟩

theorem close (unread : Unread n h) (i : Nat) : Unread n (h.close i) := by
  obtain ⟨content, nobody⟩ := unread
  rw [iff_handles] at nobody
  exact ⟨content_close content i, iff_handles.2 fun j y held => nobody j y (handle?_of_close held).1⟩

theorem closeHeld (unread : Unread n h) (held : Option Nat) : Unread n (closeHeld held h) := by
  cases held with
  | none => exact unread
  | some i => exact unread.close i

theorem forget {place : Location} (unread : Unread n h) : Unread n (h.forget place) := unread

theorem of_own {place : Location} {inbound : Option Nat} {waiting : List Message}
    (line : OwnPipe place n inbound waiting h) : Unread n (DiscCatalog.closeHeld inbound h) := by
  obtain ⟨b, content, -⟩ := line.buffer
  cases inbound with
  | none => exact ⟨⟨b, content⟩, iff_handles.2 fun i x held node => absurd node ((line.idle rfl).2 held)⟩
  | some i =>
    refine ⟨content_close ⟨b, content⟩ i, iff_handles.2 fun j x held node reads => ?_⟩
    obtain ⟨held, other⟩ := handle?_of_close held
    cases line.alone held node reads
    exact other rfl

theorem write (unread : Unread x.node h) (found : h.handle? i = some x) (bytes : List UInt8) :
    h.write i bytes = (.error .brokenPipe, h) := by
  obtain ⟨⟨b, content⟩, nobody⟩ := unread
  unfold Host.write
  rw [found]
  simp only [content, nobody]
  rfl

theorem unlink (unread : Unread n h) (path : String) : Unread n (h.unlink path).2 := by
  obtain same | ⟨place, -, same⟩ := unlink_cases path h <;> rw [same]
  · exact unread
  · exact unread.forget

end Unread

theorem names_closeHeld (held : Option Nat) (h : Host) : (closeHeld held h).names = h.names := by
  cases held with
  | none => rfl
  | some i => exact names_close i h

theorem later_closeHeld {h : Host} (sound : h.Sound) (held : Option Nat) : Later h (closeHeld held h) := by
  cases held with
  | none => exact .refl sound
  | some i => exact later_close sound i

def Vacant (settings : PipeSettings) (origin : UInt32) (h : Host) : Prop :=
  ∀ ⦃place⦄, h.walk false (settings.clientPath origin) = .ok place → ∀ n, h.nodeOf? place = some n → Unread n h

namespace Vacant

variable {settings : PipeSettings} {origin : UInt32} {home : Location} {h h' : Host}

theorem unlinked (vacant : Vacant settings origin h) : Unlinked settings origin h := by
  intro place walked target link
  obtain ⟨node, there, content⟩ := Option.map_eq_some_iff.1 link
  obtain ⟨n, at?, there⟩ := nodeOf?_of_node? there
  obtain ⟨⟨b, pipe⟩, -⟩ := vacant walked n at?
  rw [contentOf?, there] at pipe
  cases content.symm.trans (Option.some.inj pipe)

theorem openPath_write (vacant : Vacant settings origin h) (leads : Leads settings home h) :
    ∃ e, h.openPath (settings.clientPath origin) .write true = (.error e, h) := by
  obtain failed | ⟨place, number, node, found, meets, -⟩ := openPath_cases (settings.clientPath origin) .write true h
  · exact failed
  · obtain ⟨walked, at?, there⟩ := walk_of_find found
    obtain ⟨-, -, p, links, entered, direct⟩ := enter_of_walk (PipeSettings.plainName_clientName origin) walked
    cases leads entered
    have here := vacant.unlinked.place_eq leads walked
    rw [← here] at direct
    obtain ⟨⟨b, pipe⟩, nobody⟩ := vacant direct number at?
    rw [contentOf?, there] at pipe
    have met : (if h.hasReader number then .ok () else .error Errno.interrupted) = Except.ok () :=
      meets b (Option.some.inj pipe)
    rw [nobody] at met
    cases met

theorem later (vacant : Vacant settings origin h) (leads : Leads settings home h) (later : Later h h')
    (kept : ∀ n, h'.nodeOf? (replyPlace home origin) = some n →
      h.nodeOf? (replyPlace home origin) = some n ∧ (Unread n h → Unread n h')) : Vacant settings origin h' := by
  intro place walked n at?
  obtain ⟨walkable, short, p, links, entered, direct⟩ := enter_of_walk (PipeSettings.plainName_clientName origin) walked
  cases leads (later.enter entered)
  cases walked.symm.trans direct
  obtain ⟨at?', unread⟩ := kept n at?
  exact unread (vacant (walk_of_enter (later.enter entered) (PipeSettings.plainName_clientName origin) walkable short
    false fun follow => by cases follow) n at?')

theorem of_place (leads : Leads settings home h) (unread : ∀ n, h.nodeOf? (replyPlace home origin) = some n → Unread n h) :
    Vacant settings origin h := by
  intro place walked n at?
  have here := leads.place_eq (PipeSettings.plainName_clientName origin) (fun follow => by cases follow) walked
  rw [here] at at?
  exact unread n at?

end Vacant

theorem Vacant.close {settings : PipeSettings} {origin : UInt32} {home : Location} {h : Host}
    (vacant : Vacant settings origin h) (leads : Leads settings home h) (sound : h.Sound) (i : Nat) :
    Vacant settings origin (h.close i) :=
  vacant.later leads (later_close sound i) fun n at? =>
    ⟨by rwa [nodeOf?, names_close] at at?, fun unread => unread.close i⟩

structure Front (settings : PipeSettings) (home : Location) (gate : Nat) (h : Host) : Prop where
  sound : h.Sound
  leads : Leads settings home h
  there : gate < h.nodes.length
  noLink : ∀ target, h.content? (inboundPlace home) ≠ some (.link target)
  name : ∀ n, h.nodeOf? (inboundPlace home) = some n → n = gate
  sole : ∀ place, h.nodeOf? place = some gate → place = inboundPlace home

theorem Front.of_own {settings : PipeSettings} {home : Location} {pipe : Nat} {inbound : Option Nat}
    {waiting : List Message} {h : Host} (line : OwnPipe (inboundPlace home) pipe inbound waiting h)
    (leads : Leads settings home h) : Front settings home pipe h where
  sound := line.sound
  leads := leads
  there := line.lt_nodes
  noLink := line.pipeAt.noLink
  name _ at? := Option.some.inj (at?.symm.trans line.name)
  sole _ at? := line.sound.apart at? line.name

namespace Front

variable {settings : PipeSettings} {home own : Location} {gate i n : Nat} {origin : UInt32} {h h' : Host}

theorem confined (front : Front settings home gate h) (away : own ≠ inboundPlace home)
    (confined : Confined gate own h h') : Front settings home gate h' where
  sound := confined.sound
  leads := front.leads.later confined.toLater
  there := Nat.lt_of_lt_of_le front.there confined.grows
  noLink := confined.noLink front.noLink
  name n at? := front.name n (by rwa [confined.name _ away.symm] at at?)
  sole place at? := by
    by_cases same : place = own
    · subst same
      obtain old | new := confined.fresh gate at?
      · exact front.sole place old
      · exact absurd front.there (Nat.not_lt.2 new)
    · exact front.sole place (by rwa [confined.name place same] at at?)

theorem close (front : Front settings home gate h) (i : Nat) : Front settings home gate (h.close i) where
  sound := (later_close front.sound i).sound
  leads := front.leads.later (later_close front.sound i)
  there := by rw [length_nodes_close]; exact front.there
  noLink := (later_close front.sound i).noLink front.noLink
  name n at? := front.name n (by rwa [nodeOf?, names_close] at at?)
  sole place at? := front.sole place (by rwa [nodeOf?, names_close] at at?)

theorem unlink (front : Front settings home gate h) (path : String) : Front settings home gate (h.unlink path).2 where
  sound := (later_unlink front.sound path).sound
  leads := front.leads.later (later_unlink front.sound path)
  there := by
    obtain same | ⟨place, -, same⟩ := unlink_cases path h <;> rw [same] <;> exact front.there
  noLink := (later_unlink front.sound path).noLink front.noLink
  name n at? := front.name n (nodeOf?_of_unlink at?)
  sole place at? := front.sole place (nodeOf?_of_unlink at?)

theorem aloof (front : Front settings home gate h) (aloof : Aloof gate h h') : Front settings home gate h' :=
  front.confined (List.append_ne_nil_of_right_ne_nil home (List.cons_ne_nil _ [])).symm (aloof [])

theorem openPath_serverPath (front : Front settings home gate h) (access : Access) :
    (∃ e, h.openPath settings.serverPath access false = (.error e, h)) ∨
      h.openPath settings.serverPath access false =
        (.ok h.handles.length, h.adding (some { node := gate, access, blocking := false })) := by
  obtain failed | ⟨place, number, node, found, -, opened⟩ := openPath_cases settings.serverPath access false h
  · exact .inl failed
  · obtain ⟨walked, at?, -⟩ := walk_of_find found
    have here := front.leads.place_eq PipeSettings.plainName_serverName (fun _ => front.noLink) walked
    rw [here] at at?
    cases front.name number at?
    exact .inr opened

/-- What is done about one client's pipe leaves the place of another as it is. -/
theorem vacant (front : Front settings home gate h) (confined : Confined gate own h h')
    (away : own ≠ replyPlace home origin) (vacant : Vacant settings origin h) : Vacant settings origin h' := by
  refine vacant.later front.leads confined.toLater fun n at? => ?_
  rw [confined.name _ away.symm] at at?
  refine ⟨at?, fun unread => unread.spares (confined.others n unread.lt_nodes ?_)⟩
  rintro (rfl | at?')
  · exact replyPlace_ne_inboundPlace home origin (front.sole _ at?)
  · exact away (front.sound.apart at?' at?)

theorem walk_serverPath (front : Front settings home gate h) {place : Location}
    (walked : h.walk false settings.serverPath = .ok place) : place = inboundPlace home :=
  front.leads.place_eq PipeSettings.plainName_serverName (fun follow => by cases follow) walked

theorem walk_clientPath (front : Front settings home gate h) {place : Location}
    (walked : h.walk false (settings.clientPath origin) = .ok place) : place = replyPlace home origin :=
  front.leads.place_eq (PipeSettings.plainName_clientName origin) (fun follow => by cases follow) walked

end Front

def On (n : Nat) (held : Option Nat) (h : Host) : Prop := ∀ i ∈ held, h.Took i fun node _ => node = n

namespace On

variable {gate n : Nat} {held : Option Nat} {own : Location} {h h' : Host}

theorem none : On n none h := fun _ none => by cases none

theorem later (on : On n held h) (later : Later h h') : On n held h' := fun i there => (on i there).later later

theorem within (on : On n held h) (within : Within gate own h n) {i : Nat} (there : i ∈ held) {x : Handle}
    (found : h.handle? i = some x) : Within gate own h x.node := by
  rw [(on i there).2 x found]
  exact within

theorem closeHeld (on : On n held h) (sound : h.Sound) (within : Within gate own h n) :
    Confined gate own h (closeHeld held h) := by
  cases held with
  | none => exact .refl sound
  | some i => exact confined_close sound fun _ => on.within within rfl

end On

namespace PipeServer

variable {settings : PipeSettings} {home own : Location} {gate i : Nat} {origin : UInt32} {h h' : Host} {s : PipeServer}

structure Inward (gate : Nat) (s : PipeServer) (h : Host) (w : PipeServer × Host) : Prop where
  aloof : Aloof gate h w.2
  inbound : On gate w.1.inbound w.2
  same : w.1 = { s with inbound := w.1.inbound, reopening := w.1.reopening }

theorem readFresh_inward (sound : h.Sound) (inbound : On gate (some i) h) : Inward gate s h (readFresh i s h).2 := by
  have reading : Aloof gate h (h.read i Frame.size).2 :=
    fun _ => confined_read sound Frame.size fun _ => inbound.within (.inl rfl) rfl
  obtain ⟨reopening, result⟩ := readFresh_snd i s h
  rw [result]
  exact ⟨reading, inbound.later reading.later, rfl⟩

theorem reopen_inward (front : Front settings home gate h) (path : s.path = settings.serverPath) :
    Inward gate s h (reopen s h).2 := by
  have opens := front.openPath_serverPath .read
  rw [← path] at opens
  obtain ⟨e, failed⟩ | opened := opens
  · rw [reopen_failed failed]
    exact ⟨.refl front.sound, .none, rfl⟩
  · rw [reopen_opened opened]
    have opening : Aloof gate h (h.adding (some { node := gate, access := .read, blocking := true })) :=
      fun _ => confined_adding front.sound front.there (.inl rfl)
    have fresh := readFresh_inward (s := { s with inbound := none }) opening.later.sound fun i there => by
      cases there
      exact took_adding rfl
    exact ⟨opening.trans fresh.aloof, fresh.inbound, fresh.same⟩

theorem poll_inward (front : Front settings home gate h) (path : s.path = settings.serverPath)
    (inbound : On gate s.inbound h) : Inward gate s h (poll (s, h)).2 := by
  obtain closed | isOpen := Bool.eq_false_or_eq_true s.closed
  · rw [poll_closed closed]
    exact ⟨.refl front.sound, inbound, rfl⟩
  cases held : s.inbound with
  | none =>
    rw [poll_unopened isOpen held]
    exact reopen_inward front path
  | some i =>
    obtain again | fresh := Bool.eq_false_or_eq_true s.reopening
    · rw [poll_reopening isOpen held again]
      exact readFresh_inward front.sound (held ▸ inbound)
    have reading : Aloof gate h (h.read i Frame.size).2 :=
      fun _ => confined_read front.sound Frame.size fun _ => inbound.within (.inl rfl) held
    rcases read : h.read i Frame.size with ⟨given, h₁⟩
    rw [read] at reading
    have inbound₁ := inbound.later reading.later
    by_cases ended : given = .ok []
    · subst ended
      rw [poll_ended isOpen held fresh read]
      have gone := reading.trans fun own => confined_close reading.later.sound fun x => inbound₁.within (.inl rfl) held
      have anew := reopen_inward (s := { s with inbound := none }) (front.aloof gone) path
      exact ⟨gone.trans anew.aloof, anew.inbound, anew.same⟩
    · rw [poll_snd isOpen held fresh read ended]
      exact ⟨reading, inbound₁, rfl⟩

theorem receive_inward (front : Front settings home gate h) (path : s.path = settings.serverPath)
    (inbound : On gate s.inbound h) : Inward gate s h (receive (s, h)).2 := by
  have moved := poll_inward front path inbound
  rcases polled : poll (s, h) with ⟨_ | outcome, s', h'⟩ <;> rw [polled] at moved
  · rw [receive_waited polled]
    obtain ⟨aloof, inbound, same⟩ := moved
    dsimp only at same
    obtain waits | stopped := Bool.eq_false_or_eq_true s'.reopening
    · rw [abandon_waiting waits]
      exact ⟨aloof.trans fun own => inbound.closeHeld aloof.later.sound (.inl rfl), .none, by rw [same]⟩
    · rw [abandon_stopped stopped]
      exact ⟨aloof, inbound, same⟩
  · rw [receive_done polled]
    exact moved

end PipeServer

namespace PipeClient

variable {settings : PipeSettings} {home own : Location} {gate pipe i : Nat} {origin : UInt32}
  {waiting rest : List Message} {h h' : Host} {c : PipeClient}

structure HoldsNothing (c : PipeClient) : Prop where
  toServer : c.toServer = none
  reader : c.reader = none
  writer : c.writer = none

def Remains (c c' : PipeClient) : Prop := c'.origin = c.origin ∧ (c'.closed = false → c.closed = false)

theorem Remains.of_eq {c c' : PipeClient} (same : c' = c) : c.Remains c' := same ▸ ⟨rfl, id⟩

theorem openOn_origin {origin : UInt32} {w : Host} (opened : openOn settings origin h = (.ok c, w)) : c.origin = origin := by
  rcases connected : connect settings h with ⟨f | i, h₁⟩
  · rw [openOn_unconnected connected] at opened
    cases opened
  · rcases made : replacePipe (settings.clientPath origin) settings.permissions h₁ with ⟨f | _, h₂⟩
    · rw [openOn_unmade connected made] at opened
      cases opened
    · rw [openOn_made connected made] at opened
      cases opened
      rfl

theorem send_client (m : Message) (c : PipeClient) (h : Host) : (send m (c, h)).2.1 = c := by
  cases holds : c.toServer with
  | none => rw [send_closed holds]
  | some i =>
    cases stamped : stampedFrame c.origin m with
    | error f => rw [send_misfit holds stamped]
    | ok frame => rw [send_written holds stamped]

theorem replyBegin_remains (c : PipeClient) (h : Host) : c.Remains (replyBegin (c, h)).2.1 := by
  obtain closed | isOpen := Bool.eq_false_or_eq_true c.closed
  · rw [replyBegin_closed closed]
    exact ⟨rfl, id⟩
  by_cases both : c.reader.isSome ∧ c.writer.isSome
  · rw [replyBegin_again isOpen both]
    exact ⟨rfl, id⟩
  rcases reads : h.openPath c.path .read false with ⟨e | i, h₁⟩
  · rw [replyBegin_unread isOpen both reads]
    exact ⟨rfl, id⟩
  rcases writes : h₁.openPath c.path .write true with ⟨e | j, h₂⟩
  · rw [replyBegin_unwritten isOpen both reads writes]
    exact ⟨rfl, id⟩
  · rw [replyBegin_opened isOpen both reads writes]
    exact ⟨rfl, id⟩

theorem replyReceive_client (c : PipeClient) (h : Host) : (replyReceive (c, h)).2.1 = c := by
  cases reads : c.reader with
  | none => rw [replyReceive_unbegun reads]
  | some i => rw [replyReceive_snd reads]

theorem close_remains (c : PipeClient) (h : Host) : c.Remains (close (c, h)).1 := by
  obtain closed | isOpen := Bool.eq_false_or_eq_true c.closed
  · rw [close_closed closed]
    exact ⟨rfl, id⟩
  · rw [close_open isOpen]
    exact ⟨rfl, fun isOpen => by cases isOpen⟩

abbrev reading (pipe : Nat) : Handle := { node := pipe, access := .read }

/-- A client that has not been closed: what has been sent to it and it has not read waits in its pipe. -/
structure Keeps (settings : PipeSettings) (home : Location) (gate : Nat) (c : PipeClient) (pipe : Nat)
    (waiting : List Message) (h : Host) : Prop where
  isOpen : c.closed = false
  path : c.path = settings.clientPath c.origin
  line : OwnPipe (replyPlace home c.origin) pipe c.reader waiting h
  other : pipe ≠ gate
  both : c.reader.isSome = c.writer.isSome
  writer : ∀ i ∈ c.writer, ∃ x, h.handle? i = some x ∧ x.node = pipe ∧ x.access = .write
  toServer : On gate c.toServer h

namespace Keeps

variable (keeps : c.Keeps settings home gate pipe waiting h)

include keeps

theorem spares (spares : Spares pipe h h') : c.Keeps settings home gate pipe waiting h' where
  isOpen := keeps.isOpen
  path := keeps.path
  line := keeps.line.spares spares
  other := keeps.other
  both := keeps.both
  writer i held := by
    obtain ⟨x, found, node, access⟩ := keeps.writer i held
    exact ⟨x, (spares.handle i x node).2 found, node, access⟩
  toServer := keeps.toServer.later spares.toLater

theorem within : Within gate (replyPlace home c.origin) h pipe := .inr keeps.line.name

theorem confined (confined : Confined gate own h h') (away : own ≠ replyPlace home c.origin) :
    c.Keeps settings home gate pipe waiting h' :=
  keeps.spares (confined.others pipe keeps.line.lt_nodes fun within =>
    within.elim keeps.other fun at? => away (keeps.line.sound.apart at? keeps.line.name))

theorem close (writes : ∀ x, h.handle? i = some x → x.access = .write) (other : c.writer ≠ some i) :
    c.Keeps settings home gate pipe waiting (h.close i) where
  isOpen := keeps.isOpen
  path := keeps.path
  line := keeps.line.close writes
  other := keeps.other
  both := keeps.both
  writer j held := by
    obtain ⟨x, found, on⟩ := keeps.writer j held
    have apart : j ≠ i := by
      rintro rfl
      exact other held
    exact ⟨x, by rw [handle?_close, if_neg apart, found], on⟩
  toServer := keeps.toServer.later (later_close keeps.line.sound i)

theorem adding_writer {j : Nat} (reads : c.reader = some j) :
    c.Keeps settings home gate pipe waiting (h.adding (some (writing pipe))) where
  isOpen := keeps.isOpen
  path := keeps.path
  line := reads ▸ (reads ▸ keeps.line).adding_writer rfl rfl
  other := keeps.other
  both := keeps.both
  writer i held := by
    obtain ⟨x, found, on⟩ := keeps.writer i held
    exact ⟨x, handle?_adding_iff.2 (.inl found), on⟩
  toServer := keeps.toServer.later (later_adding keeps.line.sound keeps.line.lt_nodes)

theorem setContent {b : PipeBuffer} (line : OwnPipe (replyPlace home c.origin) pipe c.reader rest (h.setContent pipe (.pipe b))) :
    c.Keeps settings home gate pipe rest (h.setContent pipe (.pipe b)) where
  isOpen := keeps.isOpen
  path := keeps.path
  line := line
  other := keeps.other
  both := keeps.both
  writer := keeps.writer
  toServer := keeps.toServer

end Keeps

def given (c : PipeClient) : List Message → Except ChannelFault Message
  | m :: _ => .ok m
  | [] => .error (if c.reader.isSome then .interrupted else .noReplyChannel)

namespace Keeps

variable (keeps : c.Keeps settings home gate pipe waiting h)

include keeps

/-- While a client holds its pipe open somebody writes to it: the client itself. -/
theorem hasWriter (reads : c.reader = some i) : h.hasWriter pipe = true := by
  obtain ⟨j, writes⟩ : ∃ j, c.writer = some j :=
    Option.isSome_iff_exists.1 (by rw [← keeps.both, reads]; rfl)
  obtain ⟨x, found, on⟩ := keeps.writer j writes
  exact hasWriter_iff.2 ⟨j, x, found, on⟩

theorem not_unread {j : Nat} {x : Handle} (found : h.handle? j = some x) (node : x.node = pipe) : ¬ Unread pipe h := by
  obtain ⟨i, reads⟩ := keeps.line.held_of_handle found node
  obtain ⟨y, found, node, access, -⟩ := keeps.line.reader i reads
  exact fun unread => Unread.iff_handles.1 unread.2 i y found node access

theorem replyReceive : ∃ h', replyReceive (c, h) = (c.given waiting, c, h') ∧
    Confined gate (replyPlace home c.origin) h h' ∧ c.Keeps settings home gate pipe waiting.tail h' := by
  cases reads : c.reader with
  | none =>
    obtain ⟨rfl, -⟩ := keeps.line.idle reads
    have none : c.given [] = .error .noReplyChannel := by rw [given, reads]; rfl
    exact ⟨h, by rw [replyReceive_unbegun reads, none], .refl keeps.line.sound, keeps⟩
  | some i =>
    have line := keeps.line
    rw [reads] at line
    cases waiting with
    | nil =>
      have waits : c.given [] = .error .interrupted := by rw [given, reads]; rfl
      refine ⟨h, ?_, .refl line.sound, keeps⟩
      rw [replyReceive_failed reads (line.read_waits (keeps.hasWriter reads)), waits]
      rfl
    | cons m rest =>
      obtain ⟨b, bs, buffer, read, decoded, line'⟩ := line.read_message
      refine ⟨h.setContent pipe (.pipe buffer), ?_, ?_, keeps.setContent (reads ▸ line')⟩
      · rw [replyReceive_given reads read, decoded, given]
      · exact confined_setContent line.sound (by simp) (by simp) keeps.within

theorem send (m : Message) : Aloof gate h (PipeClient.send m (c, h)).2.2 := by
  cases held : c.toServer with
  | none =>
    rw [send_closed held]
    exact .refl keeps.line.sound
  | some i =>
    cases stamped : stampedFrame c.origin m with
    | error f =>
      rw [send_misfit held stamped]
      exact .refl keeps.line.sound
    | ok frame =>
      intro own
      rw [send_written held stamped, writeFrame_snd]
      exact confined_write keeps.line.sound frame fun _ => keeps.toServer.within (.inl rfl) held

theorem aloof (aloof : Aloof gate h h') : c.Keeps settings home gate pipe waiting h' :=
  keeps.spares (aloof.others keeps.line.sound keeps.line.lt_nodes keeps.other)

theorem confined_adding {x : Handle} (node : x.node = pipe) :
    Confined gate (replyPlace home c.origin) h (h.adding (some x)) :=
  Host.confined_adding keeps.line.sound (node ▸ keeps.line.lt_nodes) (node ▸ keeps.within)

/-- A client that could open only one end of its pipe has let go of it, and nothing else has changed. -/
theorem unopened {x : Handle} (node : x.node = pipe) (idle : c.reader = none) :
    Confined gate (replyPlace home c.origin) h ((h.adding (some x)).close h.handles.length) ∧
      (∀ i, ((h.adding (some x)).close h.handles.length).handle? i = h.handle? i) ∧
      c.Keeps settings home gate pipe waiting ((h.adding (some x)).close h.handles.length) := by
  have line := keeps.line
  rw [idle] at line
  obtain ⟨rfl, unheld⟩ := line.idle rfl
  have opening := keeps.confined_adding node
  have closing : Confined gate (replyPlace home c.origin) (h.adding (some x)) ((h.adding (some x)).close h.handles.length) :=
    confined_close opening.sound fun y found => by
      rw [handle?_adding] at found
      cases found
      exact node ▸ keeps.within
  have handles : ∀ i, ((h.adding (some x)).close h.handles.length).handle? i = h.handle? i := fun i => by
    rw [handle?_close]
    split
    · next last =>
      rw [last, handle?, List.getElem?_eq_none (Nat.le_refl _)]
      rfl
    · next other =>
      refine Option.ext fun y => ?_
      rw [handle?_adding_iff]
      exact ⟨fun found => found.resolve_right fun new => other new.1, .inl⟩
  refine ⟨opening.trans closing, handles, ?_⟩
  have anew := line.adding_reader (x := reading pipe) rfl rfl rfl
  have noWriter : (h.adding (some (reading pipe))).hasWriter pipe = false := by
    rw [Bool.eq_false_iff, ne_eq, hasWriter_iff]
    rintro ⟨i, y, found, on, writes⟩
    obtain old | ⟨-, new⟩ := handle?_adding_iff.1 found
    · exact unheld old on
    · cases new
      cases writes
  have released := anew.release noWriter
  rw [close_adding_of_node (x := reading pipe) (y := x) node.symm] at released
  have none : c.writer = none := by
    have both := keeps.both
    rw [idle] at both
    exact Option.not_isSome_iff_eq_none.1 (by rw [← both]; exact Bool.false_ne_true)
  exact { keeps with
    line := idle ▸ released
    writer := fun i held => by rw [none] at held; cases held
    toServer := keeps.toServer.later (opening.trans closing).toLater }

theorem begun (idle : c.reader = none) :
    Confined gate (replyPlace home c.origin) h ((h.adding (some (reading pipe))).adding (some (writing pipe))) ∧
      PipeClient.Keeps settings home gate
        { c with reader := some h.handles.length, writer := some (h.handles.length + 1) } pipe waiting
        ((h.adding (some (reading pipe))).adding (some (writing pipe))) := by
  have line := keeps.line
  rw [idle] at line
  obtain ⟨rfl, -⟩ := line.idle rfl
  have opening := keeps.confined_adding (x := reading pipe) rfl
  have anew := line.adding_reader (x := reading pipe) rfl rfl rfl
  have both : Confined gate (replyPlace home c.origin) h
      ((h.adding (some (reading pipe))).adding (some (writing pipe))) :=
    opening.trans (Host.confined_adding opening.sound anew.lt_nodes (.inr anew.name))
  have last : (h.adding (some (reading pipe))).handles.length = h.handles.length + 1 := by simp [adding]
  refine ⟨both, keeps.isOpen, keeps.path, anew.adding_writer rfl rfl, keeps.other, rfl, ?_, keeps.toServer.later both.toLater⟩
  rintro i ⟨⟩
  exact ⟨writing pipe, by rw [← last, handle?_adding], rfl, rfl⟩

theorem replyBegin (leads : Leads settings home h) :
    (c.reader.isSome ∧ PipeClient.replyBegin (c, h) = (.ok (), c, h)) ∨
      c.reader = none ∧ ∃ h', Confined gate (replyPlace home c.origin) h h' ∧
        ((∃ f, PipeClient.replyBegin (c, h) = (.error f, c, h') ∧ h'.names = h.names ∧ (∀ i, h'.handle? i = h.handle? i) ∧
            c.Keeps settings home gate pipe waiting h') ∨
          ∃ r w, PipeClient.replyBegin (c, h) = (.ok (), { c with reader := some r, writer := some w }, h') ∧
            h.handles.length ≤ w ∧
            PipeClient.Keeps settings home gate { c with reader := some r, writer := some w } pipe waiting h') := by
  by_cases reads : c.reader.isSome
  · have writes : c.writer.isSome := by rw [← keeps.both, reads]
    exact .inl ⟨reads, replyBegin_again keeps.isOpen ⟨reads, writes⟩⟩
  have idle := Option.not_isSome_iff_eq_none.1 reads
  have own : joinPath settings.directory (PipeSettings.clientName c.origin) = c.path := keeps.path.symm
  have plain := PipeSettings.plainName_clientName c.origin
  have opening := keeps.confined_adding (x := { node := pipe, access := .read, blocking := false }) rfl
  have stands : PipeAt (h.adding (some { node := pipe, access := .read, blocking := false })) (replyPlace home c.origin) pipe :=
    keeps.line.pipeAt
  have first := keeps.line.pipeAt.openPath_joinPath plain leads .read false
  have second := stands.openPath_joinPath plain (leads.later opening.toLater) .write true
  rw [own] at first second
  refine .inr ⟨idle, ?_⟩
  have anew : ¬ (c.reader.isSome ∧ c.writer.isSome) := fun both => reads both.1
  obtain ⟨e, failed⟩ | ⟨opened, -⟩ := first
  · rw [replyBegin_unread keeps.isOpen anew failed]
    exact ⟨h, .refl keeps.line.sound, .inl ⟨_, rfl, rfl, fun _ => rfl, keeps⟩⟩
  obtain ⟨e, failed⟩ | ⟨opened', -⟩ := second
  · rw [replyBegin_unwritten keeps.isOpen anew opened failed]
    obtain ⟨confined, handles, still⟩ :=
      keeps.unopened (x := { node := pipe, access := .read, blocking := false }) rfl idle
    exact ⟨_, confined, .inl ⟨_, rfl, names_close _ _, handles, still⟩⟩
  · obtain ⟨confined, begun⟩ := keeps.begun idle
    have last : (h.adding (some { node := pipe, access := .read, blocking := false })).handles.length =
        h.handles.length + 1 := by simp [adding]
    rw [replyBegin_opened keeps.isOpen anew opened opened', makeBlocking_adding_adding, last]
    exact ⟨_, confined, .inr ⟨_, _, rfl, Nat.le_succ _, begun⟩⟩

/-- A client that leaves takes the name of its pipe away, or leaves the pipe there without a reader. -/
theorem leave (front : Front settings home gate h) :
    (PipeClient.close (c, h)).1 = { c with closed := true, toServer := none, reader := none, writer := none } ∧
      Confined gate (replyPlace home c.origin) h (PipeClient.close (c, h)).2 ∧
      Unread pipe (PipeClient.close (c, h)).2 ∧ Vacant settings c.origin (PipeClient.close (c, h)).2 := by
  have reader : On pipe c.reader h := fun i held => by
    obtain ⟨x, found, node, -⟩ := keeps.line.reader i held
    exact ⟨lt_of_handle? found, fun y found' => by cases found.symm.trans found'; exact node⟩
  have writer : On pipe c.writer h := fun i held => by
    obtain ⟨x, found, node, -⟩ := keeps.writer i held
    exact ⟨lt_of_handle? found, fun y found' => by cases found.symm.trans found'; exact node⟩
  have leaving : Aloof gate h (closeHeld c.toServer h) := fun own => keeps.toServer.closeHeld keeps.line.sound (.inl rfl)
  have still := keeps.aloof leaving
  have first := leaving (replyPlace home c.origin)
  have second := (reader.later first.toLater).closeHeld first.sound still.within
  have name : ∀ held, (closeHeld held (closeHeld c.reader (closeHeld c.toServer h))).nodeOf? (replyPlace home c.origin) =
      some pipe := fun held => by
    rw [nodeOf?, names_closeHeld, names_closeHeld]
    exact still.line.name
  have third := (writer.later (first.trans second).toLater).closeHeld second.sound
    (.inr (name none) : Within gate (replyPlace home c.origin) _ pipe)
  have unread := (Unread.of_own still.line).closeHeld c.writer
  have gone := first.trans (second.trans third)
  have front' := front.confined (replyPlace_ne_inboundPlace home c.origin) gone
  have closed := close_open (h := h) keeps.isOpen
  replace name := name c.writer
  generalize closeHeld c.writer (closeHeld c.reader (closeHeld c.toServer h)) = h₁ at *
  rw [closed]
  have fourth : Confined gate (replyPlace home c.origin) h₁ (h₁.unlink c.path).2 :=
    confined_unlink front'.sound fun place walked => front'.walk_clientPath (by rw [← keeps.path]; exact walked)
  refine ⟨rfl, gone.trans fourth, unread.unlink _, .of_place (front'.leads.later fourth.toLater) fun n at? => ?_⟩
  cases name.symm.trans (nodeOf?_of_unlink at?)
  exact unread.unlink _

end Keeps

/-- A client that comes takes the place of whatever stood under its pipe's path. -/
structure Came (settings : PipeSettings) (home : Location) (gate : Nat) (origin : UInt32) (h : Host)
    (result : Except ChannelFault PipeClient × Host) : Prop where
  confined : Confined gate (replyPlace home origin) h result.2
  unread : ∀ n, n ≠ gate → Unread n h → Unread n result.2
  failed : ∀ f, result.1 = .error f → Vacant settings origin h → Vacant settings origin result.2
  opened : ∀ c, result.1 = .ok c → c.origin = origin ∧ c.writer = none ∧
    ∃ pipe, c.Keeps settings home gate pipe [] result.2

theorem connect_gate (front : Front settings home gate h) :
    (∃ f, connect settings h = (.error f, h)) ∨
      connect settings h = (.ok h.handles.length, h.adding (some (writing gate))) := by
  obtain ⟨e, failed⟩ | opened := front.openPath_serverPath .write
  · exact .inl ⟨_, connect_failed failed⟩
  · exact .inr (connect_opened opened)

theorem openOn_came (front : Front settings home gate h) (origin : UInt32) :
    Came settings home gate origin h (openOn settings origin h) := by
  obtain ⟨f, failed⟩ | connected := connect_gate front
  · rw [openOn_unconnected failed]
    exact ⟨.refl front.sound, fun _ _ => id, fun _ _ => id, fun c opened => by cases opened⟩
  have away := replyPlace_ne_inboundPlace home origin
  have joining : Confined gate (replyPlace home origin) h (h.adding (some (writing gate))) :=
    confined_adding front.sound front.there (.inl rfl)
  have removing : Confined gate (replyPlace home origin) (h.adding (some (writing gate)))
      ((h.adding (some (writing gate))).unlink (settings.clientPath origin)).2 :=
    confined_unlink joining.sound fun place => (front.confined away joining).walk_clientPath
  have front' := (front.confined away joining).confined away removing
  have took : On gate (some h.handles.length) (h.adding (some (writing gate))) := fun i held => by
    cases held
    exact took_adding rfl
  have unread : ∀ n, n ≠ gate → Unread n h →
      Unread n ((h.adding (some (writing gate))).unlink (settings.clientPath origin)).2 := fun n other unread =>
    (unread.adding fun same => absurd same other.symm).unlink _
  have names : ∀ n, ((h.adding (some (writing gate))).unlink (settings.clientPath origin)).2.nodeOf?
      (replyPlace home origin) = some n → h.nodeOf? (replyPlace home origin) = some n := fun _ => nodeOf?_of_unlink
  have replaced := replacePipe_cases (settings.clientPath origin) settings.permissions (h.adding (some (writing gate)))
  generalize ((h.adding (some (writing gate))).unlink (settings.clientPath origin)).2 = h₁ at *
  obtain ⟨f, failed⟩ | ⟨place, walked, free, made⟩ := replaced
  · have closing : Confined gate (replyPlace home origin) h₁ (h₁.close h.handles.length) :=
      confined_close removing.sound fun x => (took.later removing.toLater).within (.inl rfl) rfl
    have gone := joining.trans (removing.trans closing)
    rw [openOn_unmade connected failed]
    refine ⟨gone, fun n other before => (unread n other before).close _, fun _ _ vacant => ?_, fun c opened => by cases opened⟩
    refine vacant.later front.leads gone.toLater fun n at? => ?_
    have before : h.nodeOf? (replyPlace home origin) = some n := names n (by rwa [nodeOf?, names_close] at at?)
    have other : n ≠ gate := by
      rintro rfl
      exact away (front.sole _ before)
    exact ⟨before, fun nobody => (unread n other nobody).close _⟩
  · cases front'.walk_clientPath walked
    rw [openOn_made connected made]
    have making : Confined gate (replyPlace home origin) h₁
        (h₁.create (replyPlace home origin) ⟨.pipe {}, grant settings.permissions.toNat⟩) :=
      confined_create front'.sound free (by simp) (by simp)
    have came := joining.trans (removing.trans making)
    refine ⟨came, fun n other before => ?_, fun _ failed => (by cases failed), ?_⟩
    · have nobody := unread n other before
      exact nobody.spares (spares_create front'.sound free (by simp) (by simp) nobody.lt_nodes)
    · rintro c ⟨⟩
      have line : OwnPipe (replyPlace home origin) h₁.nodes.length none []
          (h₁.create (replyPlace home origin) ⟨.pipe {}, grant settings.permissions.toNat⟩) :=
        .of_create front'.sound free _
      exact ⟨rfl, rfl, _, rfl, rfl, line, (Nat.ne_of_lt front'.there).symm, rfl, fun _ none => (by cases none),
        took.later (removing.trans making).toLater⟩

end PipeClient

end DiscCatalog
