import DiscCatalog.Proofs.Channel.OwnPipe
import DiscCatalog.Proofs.Channel.PipeSteps
import DiscCatalog.Settings

namespace DiscCatalog

open Host

namespace PipeSettings

def serverName : String := "server_pipe"

def clientName (origin : UInt32) : String := s!"cli_{origin}_fifo"

theorem plainName_serverName : PlainName serverName := by
  constructor <;> decide

theorem toList_clientName (origin : UInt32) :
    (clientName origin).toList = "cli_".toList ++ (origin.toNat.repr.toList ++ "_fifo".toList) := by
  change ("cli_" ++ origin.toNat.repr ++ "_fifo").toList = _
  rw [String.toList_append, String.toList_append, List.append_assoc]

theorem clientName_injective : Function.Injective clientName := by
  intro o p same
  have digits := congrArg String.toList same
  rw [toList_clientName, toList_clientName, List.append_cancel_left_eq, List.append_cancel_right_eq] at digits
  rw [Nat.toList_repr, Nat.toList_repr] at digits
  have number := congrArg (Nat.ofDigitChars 10 · 0) digits
  simp only [Nat.ofDigitChars_ten_toDigits] at number
  exact UInt32.toNat_inj.1 number

theorem plainName_clientName (origin : UInt32) : PlainName (clientName origin) := by
  have plain : ∀ c, c ∉ "cli_".toList → ¬ c.isDigit → c ∉ "_fifo".toList → c ∉ (clientName origin).toList := by
    intro c head digit tail
    rw [toList_clientName, List.mem_append, List.mem_append]
    rintro (front | number | back)
    · exact head front
    · exact digit (Text.isDigit_of_mem_repr number)
    · exact tail back
  have differ : ∀ other : String, other.toList.head? ≠ some 'c' → clientName origin ≠ other := by
    rintro other head rfl
    rw [toList_clientName] at head
    exact head rfl
  exact ⟨differ _ (by decide), plain _ (by decide) (by decide) (by decide), plain _ (by decide) (by decide) (by decide),
    differ _ (by decide), differ _ (by decide)⟩

theorem clientName_ne_serverName (origin : UInt32) : clientName origin ≠ serverName := by
  intro same
  have first := congrArg (fun name : String => name.toList.head?) same
  rw [toList_clientName] at first
  cases first

/-- No two clients have one pipe. -/
theorem clientPath_injective (settings : PipeSettings) : Function.Injective settings.clientPath := fun o p same =>
  clientName_injective ((plainName_clientName o).eq_of_joinPath (plainName_clientName p) same)

theorem clientPath_ne_serverPath (settings : PipeSettings) (origin : UInt32) :
    settings.clientPath origin ≠ settings.serverPath := fun same =>
  clientName_ne_serverName origin ((plainName_clientName origin).eq_of_joinPath plainName_serverName same)

end PipeSettings

def Leads (settings : PipeSettings) (home : Location) (h : Host) : Prop :=
  ∀ ⦃place links⦄, h.enter settings.directory = .ok (place, links) → place = home

namespace Leads

variable {settings : PipeSettings} {home place : Location} {h h' : Host} {name : String} {follow : Bool}

theorem later (leads : Leads settings home h) (later : Later h h') : Leads settings home h' :=
  fun _ _ entered => leads (later.enter entered)

theorem place_eq (leads : Leads settings home h) (plain : PlainName name)
    (noLink : follow = true → ∀ target, h.content? (home ++ [name]) ≠ some (.link target))
    (walked : h.walk follow (joinPath settings.directory name) = .ok place) : place = home ++ [name] := by
  obtain ⟨walkable, short, p, links, entered, -⟩ := enter_of_walk plain walked
  cases leads entered
  rw [walk_of_enter entered plain walkable short follow noLink] at walked
  exact (Except.ok.inj walked).symm

end Leads

def Unlinked (settings : PipeSettings) (origin : UInt32) (h : Host) : Prop :=
  ∀ ⦃place⦄, h.walk false (settings.clientPath origin) = .ok place → ∀ target, h.content? place ≠ some (.link target)

namespace Unlinked

variable {settings : PipeSettings} {origin : UInt32} {home place : Location} {h h' : Host}

theorem later (unlinked : Unlinked settings origin h) (later : Later h h') : Unlinked settings origin h' := by
  intro place walked
  obtain ⟨walkable, short, p, links, entered, direct⟩ := enter_of_walk (PipeSettings.plainName_clientName origin) walked
  cases walked.symm.trans direct
  exact later.noLink (unlinked (walk_of_enter (later.enter entered) (PipeSettings.plainName_clientName origin) walkable
    short false fun follow => by cases follow))

/-- Where no link stands, the path leads to a name of its own in the directory of the pipes. -/
theorem place_eq (unlinked : Unlinked settings origin h) (leads : Leads settings home h) {follow : Bool}
    (walked : h.walk follow (settings.clientPath origin) = .ok place) :
    place = home ++ [PipeSettings.clientName origin] := by
  obtain ⟨-, -, p, links, entered, direct⟩ := enter_of_walk (PipeSettings.plainName_clientName origin) walked
  cases leads entered
  exact leads.place_eq (PipeSettings.plainName_clientName origin) (fun _ => unlinked direct) walked

end Unlinked

def Aside (pipe : Nat) (held : Option Nat) (h : Host) : Prop := ∀ i ∈ held, h.Took i fun node _ => node ≠ pipe

namespace Aside

variable {pipe : Nat} {held : Option Nat} {h h' : Host}

theorem none : Aside pipe none h := fun _ none => by cases none

theorem later (aside : Aside pipe held h) (later : Later h h') : Aside pipe held h' :=
  fun i there => (aside i there).later later

theorem closeHeld (aside : Aside pipe held h) (sound : h.Sound) : Spares pipe h (closeHeld held h) := by
  cases held with
  | none => exact .refl sound
  | some i => exact spares_close sound (aside i rfl).2

end Aside

theorem stampedFrame_eq_ok {origin : UInt32} {m : Message} {frame : List UInt8}
    (stamped : stampedFrame origin m = .ok frame) :
    frame = { m with origin }.frame ∧ { m with origin }.Encodes := by
  have encodes : m.Encodes := by
    cases misfit : m.misfit? with
    | none => exact Message.misfit?_eq_none_iff.1 misfit
    | some fault => rw [stampedFrame_of_misfit origin misfit] at stamped; cases stamped
  rw [stampedFrame, Message.encode_of_encodes encodes] at stamped
  cases stamped
  have parts := Message.encodes_iff.1 encodes
  exact ⟨Message.stamp_frame m origin, Message.encodes_iff.2 parts⟩

theorem writeFrame_snd (i : Nat) (frame : List UInt8) (h : Host) : (writeFrame i frame h).2 = (h.write i frame).2 := by
  unfold writeFrame
  obtain ⟨_ | _, h'⟩ := h.write i frame <;> rfl

theorem replacePipe_cases (path : String) (permissions : UInt32) (h : Host) :
    (∃ f, replacePipe path permissions h = (.error f, (h.unlink path).2)) ∨
      ∃ place, (h.unlink path).2.walk false path = .ok place ∧ (h.unlink path).2.nodeOf? place = none ∧
        replacePipe path permissions h =
          (.ok (), (h.unlink path).2.create place ⟨.pipe {}, grant permissions.toNat⟩) := by
  have cleared : (removeStale path h).2 = (h.unlink path).2 := by
    unfold removeStale
    obtain ⟨_ | _, h'⟩ := h.unlink path <;> rfl
  rw [← cleared]
  unfold replacePipe
  obtain ⟨f | _, h'⟩ := removeStale path h
  · exact .inl ⟨f, rfl⟩
  · dsimp only
    obtain ⟨e, failed⟩ | ⟨place, walked, free, made⟩ := makePipe_cases path permissions.toNat h'
    · rw [failed]
      exact .inl ⟨_, rfl⟩
    · rw [made]
      exact .inr ⟨place, walked, free, rfl⟩

section Paths

variable {settings : PipeSettings} {home : Location} {pipe : Nat} {inbound : Option Nat} {waiting : List Message}
  {h h' : Host}

abbrev inboundPlace (home : Location) : Location := home ++ [PipeSettings.serverName]

/-- A pipe of this number stands at a place. -/
def PipeAt (h : Host) (place : Location) (pipe : Nat) : Prop :=
  h.nodeOf? place = some pipe ∧ ∃ b, h.contentOf? pipe = some (.pipe b)

section Found

variable {name : String} (stands : PipeAt h (home ++ [name]) pipe) (plain : PlainName name)
  (leads : Leads settings home h)

theorem OwnPipe.pipeAt {place : Location} (line : OwnPipe place pipe inbound waiting h) : PipeAt h place pipe := by
  obtain ⟨b, content, -⟩ := line.buffer
  exact ⟨line.name, b, content⟩

theorem PipeAt.noLink {place : Location} (stands : PipeAt h place pipe) (target : String) :
    h.content? place ≠ some (.link target) := by
  obtain ⟨at?, b, content⟩ := stands
  intro link
  rw [Host.content?, node?_of_nodeOf? at?] at link
  cases content.symm.trans link

include stands plain leads

theorem PipeAt.find_joinPath {place : Location} {number : Nat} {node : Node}
    (found : h.find true (joinPath settings.directory name) = .ok (place, number, node)) :
    number = pipe ∧ ∃ b, node.content = .pipe b := by
  have here := leads.place_eq plain (fun _ => stands.noLink) (walk_of_find found).1
  obtain ⟨at?, b, content⟩ := stands
  obtain ⟨walked, at?', there⟩ := walk_of_find found
  rw [here, at?] at at?'
  cases at?'
  rw [contentOf?, there] at content
  exact ⟨rfl, b, Option.some.inj content⟩

theorem PipeAt.openPath_joinPath (access : Access) (blocking : Bool) :
    (∃ e, h.openPath (joinPath settings.directory name) access blocking = (.error e, h)) ∨
      h.openPath (joinPath settings.directory name) access blocking =
          (.ok h.handles.length, h.adding (some { node := pipe, access, blocking })) ∧
        (access = .write → h.hasReader pipe = true) := by
  obtain failed | ⟨place, number, node, found, meets, opened⟩ :=
    openPath_cases (joinPath settings.directory name) access blocking h
  · exact .inl failed
  · obtain ⟨rfl, b, content⟩ := stands.find_joinPath plain leads found
    refine .inr ⟨opened, ?_⟩
    rintro rfl
    have met : (if h.hasReader number then .ok () else .error (if blocking then Errno.interrupted else .noDevice)) =
        Except.ok () := meets b content
    split at met
    · next reads => exact reads
    · cases met

end Found

theorem OwnPipe.openPath_serverPath (line : OwnPipe (inboundPlace home) pipe inbound waiting h)
    (leads : Leads settings home h) (access : Access) :
    (∃ e, h.openPath settings.serverPath access false = (.error e, h)) ∨
      h.openPath settings.serverPath access false =
          (.ok h.handles.length, h.adding (some { node := pipe, access, blocking := false })) ∧
        (access = .write → ∃ i, inbound = some i) := by
  refine (line.pipeAt.openPath_joinPath PipeSettings.plainName_serverName leads access false).imp_right ?_
  exact fun ⟨opened, reads⟩ => ⟨opened, fun write => Option.isSome_iff_exists.1 (line.hasReader_iff.1 (reads write))⟩

theorem OwnPipe.nodeOf?_client (line : OwnPipe (inboundPlace home) pipe inbound waiting h) (origin : UInt32) :
    h.nodeOf? (home ++ [PipeSettings.clientName origin]) ≠ some pipe := by
  intro at?
  have same := List.append_cancel_left (line.sound.apart at? line.name)
  exact PipeSettings.clientName_ne_serverName origin (List.cons.inj same).1

theorem OwnPipe.openPath_clientPath (line : OwnPipe (inboundPlace home) pipe inbound waiting h)
    (leads : Leads settings home h) {origin : UInt32} (unlinked : Unlinked settings origin h) (access : Access)
    (blocking : Bool) :
    (∃ e, h.openPath (settings.clientPath origin) access blocking = (.error e, h)) ∨
      ∃ h', h.openPath (settings.clientPath origin) access blocking = (.ok h.handles.length, h') ∧ Spares pipe h h' ∧
        Aside pipe (some h.handles.length) h' := by
  obtain failed | ⟨place, number, node, found, -, opened⟩ :=
    openPath_cases (settings.clientPath origin) access blocking h
  · exact .inl failed
  · obtain ⟨walked, at?, -⟩ := walk_of_find found
    have here := unlinked.place_eq leads walked
    have other : number ≠ pipe := fun same => line.nodeOf?_client origin (here ▸ same ▸ at?)
    refine .inr ⟨_, opened, spares_adding line.sound (line.sound.there at?) other, ?_⟩
    rintro i ⟨⟩
    exact took_adding other

end Paths

namespace PipeServer

variable {settings : PipeSettings} {home : Location} {pipe i : Nat} {inbound : Option Nat}
  {waiting left : List Message} {h h' : Host} {s : PipeServer}

structure Serves (settings : PipeSettings) (s : PipeServer) : Prop where
  set : s.settings = settings
  path : s.path = settings.serverPath
  isOpen : s.closed = false

inductive Takes (path : String) : (waiting : List Message) → Poll → (left : List Message) → Prop
  | message (m : Message) (rest : List Message) : Takes path (m :: rest) (some (.ok m)) rest
  | fault (e : Errno) : Takes path [] (some (.error (.ofPipe "open" path e))) []
  | waits : Takes path [] none []

/-- What a server comes to, and the pipe after that. While a server waits for somebody to open the pipe, nobody
has done so. -/
structure Polled (home : Location) (pipe : Nat) (waiting : List Message) (s : PipeServer) (h : Host)
    (result : Poll × PipeServer × Host) (left : List Message) : Prop where
  takes : Takes s.path waiting result.1 left
  line : OwnPipe (inboundPlace home) pipe result.2.1.inbound left result.2.2
  later : Later h result.2.2
  same : result.2.1 = { s with inbound := result.2.1.inbound, reopening := result.2.1.reopening }
  again : result.2.1.reopening = true →
    result.1 = none ∧ result.2.1.inbound.isSome ∧ result.2.2.hasWriter pipe = false

theorem readFresh_polled (line : OwnPipe (inboundPlace home) pipe (some i) waiting h) :
    ∃ left, Polled home pipe waiting s h (readFresh i s h) left := by
  cases waiting with
  | cons m rest =>
    obtain ⟨b, bs, buffer, read, decoded, line'⟩ := line.read_message
    rw [readFresh_given read, decoded]
    exact ⟨rest, .message m rest, line', line.later_setContent buffer, rfl, fun again => by cases again⟩
  | nil =>
    cases writes : h.hasWriter pipe with
    | true =>
      rw [readFresh_waits (line.read_waits writes)]
      exact ⟨[], .waits, line, .refl line.sound, rfl, fun again => by cases again⟩
    | false =>
      rw [readFresh_ended (line.read_ends writes)]
      exact ⟨[], .waits, line, .refl line.sound, rfl, fun _ => ⟨rfl, rfl, writes⟩⟩

theorem reopen_polled (serves : s.Serves settings) (leads : Leads settings home h) (fresh : s.reopening = false)
    (line : OwnPipe (inboundPlace home) pipe none waiting h) :
    ∃ left, Polled home pipe waiting s h (reopen s h) left := by
  obtain ⟨rfl, -⟩ := line.idle rfl
  have opens := line.openPath_serverPath leads .read
  rw [← serves.path] at opens
  obtain ⟨e, failed⟩ | ⟨opened, -⟩ := opens
  · rw [reopen_failed failed]
    exact ⟨[], .fault e, line, .refl line.sound, rfl, fun again => by cases fresh.symm.trans again⟩
  · rw [reopen_opened opened]
    have line' := line.adding_reader (x := { node := pipe, access := .read, blocking := true }) rfl rfl rfl
    obtain ⟨left, polled⟩ := readFresh_polled (s := { s with inbound := none }) line'
    exact ⟨left, polled.takes, polled.line, .trans (later_adding line.sound line.lt_nodes) polled.later,
      polled.same, polled.again⟩

/-- A server takes the oldest message that waits. Where none does it waits as well, or it cannot open its pipe. -/
theorem poll_polled (serves : s.Serves settings) (leads : Leads settings home h)
    (line : OwnPipe (inboundPlace home) pipe s.inbound waiting h)
    (again : s.reopening = true → s.inbound.isSome) :
    ∃ left, Polled home pipe waiting s h (poll (s, h)) left := by
  have isOpen := serves.isOpen
  cases held : s.inbound with
  | none =>
    have fresh : s.reopening = false := by
      cases waits : s.reopening with
      | false => rfl
      | true => rw [held] at again; cases again waits
    rw [poll_unopened isOpen held]
    exact reopen_polled serves leads fresh (held ▸ line)
  | some i =>
    rw [held] at line
    cases fresh : s.reopening with
    | true =>
      rw [poll_reopening isOpen held fresh]
      exact readFresh_polled line
    | false =>
      cases waiting with
      | cons m rest =>
        obtain ⟨b, bs, buffer, read, decoded, line'⟩ := line.read_message
        rw [poll_given isOpen held fresh read, decoded]
        exact ⟨rest, .message m rest, held ▸ line', line.later_setContent buffer, rfl,
          fun again => by cases fresh.symm.trans again⟩
      | nil =>
        cases writes : h.hasWriter pipe with
        | true =>
          rw [poll_waits isOpen held fresh (line.read_waits writes)]
          exact ⟨[], .waits, held ▸ line, .refl line.sound, rfl, fun again => by cases fresh.symm.trans again⟩
        | false =>
          rw [poll_ended isOpen held fresh (line.read_ends writes)]
          have closing := later_close line.sound i
          obtain ⟨left, polled⟩ := reopen_polled (s := { s with inbound := none })
            ⟨serves.set, serves.path, serves.isOpen⟩ (leads.later closing) fresh (line.release writes)
          exact ⟨left, polled.takes, polled.line, closing.trans polled.later, polled.same, polled.again⟩

structure Received (home : Location) (pipe : Nat) (waiting : List Message) (s : PipeServer) (h : Host)
    (result : Except ChannelFault Message × PipeServer × Host) (left : List Message) : Prop where
  takes : ∃ outcome, Takes s.path waiting outcome left ∧ result.1 = outcome.getD (.error .interrupted)
  line : OwnPipe (inboundPlace home) pipe result.2.1.inbound left result.2.2
  later : Later h result.2.2
  same : result.2.1 = { s with inbound := result.2.1.inbound, reopening := result.2.1.reopening }
  stopped : result.2.1.reopening = false

theorem receive_received (serves : s.Serves settings) (leads : Leads settings home h)
    (line : OwnPipe (inboundPlace home) pipe s.inbound waiting h)
    (again : s.reopening = true → s.inbound.isSome) :
    ∃ left, Received home pipe waiting s h (receive (s, h)) left := by
  obtain ⟨left, moved⟩ := poll_polled serves leads line again
  rcases polled : poll (s, h) with ⟨outcome, s', h'⟩
  rw [polled] at moved
  obtain ⟨takes, line', later, same, again'⟩ := moved
  dsimp only at takes line' later same again'
  cases outcome with
  | some outcome =>
    rw [receive_done polled]
    refine ⟨left, ⟨_, takes, rfl⟩, line', later, same, ?_⟩
    cases waits : s'.reopening with
    | false => rfl
    | true => cases (again' waits).1
  | none =>
    rw [receive_waited polled]
    cases waits : s'.reopening with
    | false =>
      rw [abandon_stopped waits]
      exact ⟨left, ⟨_, takes, rfl⟩, line', later, same, waits⟩
    | true =>
      obtain ⟨-, some, noWriter⟩ := again' waits
      obtain ⟨i, held⟩ := Option.isSome_iff_exists.1 some
      cases takes
      rw [held] at line'
      rw [abandon_waiting waits, held, same]
      exact ⟨[], ⟨_, .waits, rfl⟩, line'.release noWriter, later.trans (later_close line'.sound i), rfl, rfl⟩

theorem openOn_free {links : Nat} (sound : h.Sound) (entered : h.enter settings.directory = .ok (home, links))
    (walkable : Walkable settings.serverPath) (free : h.nodeOf? (inboundPlace home) = none)
    (mayChange : h.mayChange (inboundPlace home) = true)
    (readable : allows ⟨.pipe {}, grant settings.permissions.toNat⟩ .read = true) :
    (openOn settings h).1 = .ok { settings, path := settings.serverPath, inbound := some h.handles.length } := by
  have walked : h.walk false settings.serverPath = .ok (inboundPlace home) :=
    walk_of_enter entered PipeSettings.plainName_serverName walkable (by decide) false fun follow => by cases follow
  have cleared : removeStale settings.serverPath h = (.ok (), h) := by
    rw [removeStale, unlink, find_of_walk_none walked free]
    rfl
  have made : h.makePipe settings.serverPath settings.permissions.toNat =
      (.ok (), h.create (inboundPlace home) ⟨.pipe {}, grant settings.permissions.toNat⟩) := by
    simp [makePipe, make, walked, free, mayChange]
  have found : (h.create (inboundPlace home) ⟨.pipe {}, grant settings.permissions.toNat⟩).find true
      settings.serverPath = .ok (inboundPlace home, h.nodes.length, ⟨.pipe {}, grant settings.permissions.toNat⟩) := by
    refine find_of_walk ?_ (nodeOf?_create_self free _) (by simp [create])
    refine walk_of_enter (enter_create sound free entered) PipeSettings.plainName_serverName walkable (by decide)
      true ?_
    intro _ target
    rw [Host.content?, node?_create_self sound free]
    simp
  have replaced : replacePipe settings.serverPath settings.permissions h =
      (.ok (), h.create (inboundPlace home) ⟨.pipe {}, grant settings.permissions.toNat⟩) := by
    simp only [replacePipe, cleared, made]
  have opened : (h.create (inboundPlace home) ⟨.pipe {}, grant settings.permissions.toNat⟩).openPath
      settings.serverPath .read false = (.ok h.handles.length,
        (h.create (inboundPlace home) ⟨.pipe {}, grant settings.permissions.toNat⟩).adding
          (some { node := h.nodes.length, access := .read, blocking := false })) := by
    simp only [openPath, found, readable]
    rfl
  rw [openOn_opened replaced opened]
  rfl

section Replies

variable (line : OwnPipe (inboundPlace home) pipe inbound waiting h) (aside : Aside pipe s.outbound h)

include line aside

theorem replyBegin_spares (leads : Leads settings home h) (set : s.settings = settings) {origin : UInt32}
    (unlinked : Unlinked settings origin h) :
    Spares pipe h (replyBegin origin (s, h)).2.2 ∧ ∃ outbound, (replyBegin origin (s, h)).2.1 = { s with outbound } ∧
      Aside pipe outbound (replyBegin origin (s, h)).2.2 := by
  subst set
  obtain closed | isOpen := Bool.eq_false_or_eq_true s.closed
  · rw [replyBegin_closed closed]
    exact ⟨.refl line.sound, s.outbound, rfl, aside⟩
  · obtain ⟨e, failed⟩ | ⟨h', opened, taking, apart⟩ := line.openPath_clientPath leads unlinked .write true
    · rw [replyBegin_failed isOpen failed]
      exact ⟨.refl line.sound, s.outbound, rfl, aside⟩
    · have closing := (aside.later taking.toLater).closeHeld taking.sound
      rw [replyBegin_opened isOpen opened]
      exact ⟨taking.trans closing, some h.handles.length, rfl, apart.later closing.toLater⟩

theorem replySend_spares (m : Message) :
    (replySend m (s, h)).2.1 = s ∧ Spares pipe h (replySend m (s, h)).2.2 := by
  cases held : s.outbound with
  | none =>
    rw [replySend_unbegun held]
    exact ⟨rfl, .refl line.sound⟩
  | some i =>
    cases encoded : m.encode with
    | error misfit =>
      rw [replySend_misfit held encoded]
      exact ⟨rfl, .refl line.sound⟩
    | ok frame =>
      have writing := (later_write (i := i) line.sound frame).2 (aside i held).2
      rw [replySend_written held encoded]
      exact ⟨rfl, by rw [writeFrame_snd]; exact writing⟩

end Replies

theorem openOn_eq_ok (sound : h.Sound) (opened : openOn settings h = (.ok s, h')) :
    ∃ h₁ : Host, h₁ = (h.unlink settings.serverPath).2 ∧ h₁.Sound ∧
      ∃ home links, h₁.enter settings.directory = .ok (home, links) ∧ h₁.nodeOf? (inboundPlace home) = none ∧
        s = { settings, path := settings.serverPath, inbound := some h₁.handles.length } ∧
        h' = (h₁.create (inboundPlace home) ⟨.pipe {}, grant settings.permissions.toNat⟩).adding
          (some { node := h₁.nodes.length, access := .read }) := by
  refine ⟨_, rfl, (later_unlink sound settings.serverPath).sound, ?_⟩
  obtain ⟨f, failed⟩ | ⟨made, walked, free, replaced⟩ := replacePipe_cases settings.serverPath settings.permissions h
  · rw [openOn_unmade failed] at opened
    cases opened
  have sound₁ := (later_unlink sound settings.serverPath).sound
  generalize (h.unlink settings.serverPath).2 = h₁ at *
  have making : Later h₁ (h₁.create made ⟨.pipe {}, grant settings.permissions.toNat⟩) :=
    later_create sound₁ free (by simp) (by simp)
  obtain ⟨e, failed⟩ | ⟨place, number, node, found, -, taken⟩ := openPath_cases settings.serverPath .read false
    (h₁.create made ⟨.pipe {}, grant settings.permissions.toNat⟩)
  · rw [openOn_unopened replaced failed] at opened
    cases opened
  rw [openOn_opened replaced taken] at opened
  cases opened
  obtain ⟨-, -, home, links, entered, -⟩ := enter_of_walk PipeSettings.plainName_serverName walked
  have leads : Leads settings home h₁ := by
    intro p l before
    cases before.symm.trans entered
    rfl
  cases leads.place_eq PipeSettings.plainName_serverName (fun follow => by cases follow) walked
  have stands : PipeAt (h₁.create (inboundPlace home) ⟨.pipe {}, grant settings.permissions.toNat⟩) (inboundPlace home)
      h₁.nodes.length := (OwnPipe.of_create sound₁ free _).pipeAt
  obtain ⟨rfl, -⟩ := stands.find_joinPath PipeSettings.plainName_serverName (leads.later making) found
  exact ⟨home, links, entered, free, rfl, rfl⟩

theorem openOn_serves (sound : h.Sound) (opened : openOn settings h = (.ok s, h')) :
    ∃ home pipe links, h'.enter settings.directory = .ok (home, links) ∧
      OwnPipe (inboundPlace home) pipe s.inbound [] h' ∧ s.Serves settings ∧ s.inbound.isSome ∧
      s.reopening = false ∧ s.outbound = none := by
  obtain ⟨h₁, -, sound₁, home, links, entered, free, rfl, rfl⟩ := openOn_eq_ok sound opened
  have line : OwnPipe (inboundPlace home) h₁.nodes.length none []
      (h₁.create (inboundPlace home) ⟨.pipe {}, grant settings.permissions.toNat⟩) :=
    .of_create sound₁ free _
  exact ⟨home, _, links, enter_adding (enter_create sound₁ free entered), line.adding_reader rfl rfl rfl, ⟨rfl, rfl, rfl⟩, rfl, rfl, rfl⟩

theorem openOn_nodeOf? {links n : Nat} {place : Location} (sound : h.Sound)
    (opened : openOn settings h = (.ok s, h')) (entered : h'.enter settings.directory = .ok (home, links))
    (at? : h'.nodeOf? place = some n) : place = inboundPlace home ∨ h.nodeOf? place = some n := by
  obtain ⟨h₁, unlinked, sound₁, home', links', before, free, -, rfl⟩ := openOn_eq_ok sound opened
  cases (enter_adding (enter_create sound₁ free before)).symm.trans entered
  have made : (h₁.create (inboundPlace home) ⟨.pipe {}, grant settings.permissions.toNat⟩).nodeOf? place = some n := at?
  rw [nodeOf?_create free] at made
  split at made
  · next same => exact .inl same
  · rw [unlinked] at made
    exact .inr (nodeOf?_of_unlink made)

end PipeServer

namespace PipeClient

variable {settings : PipeSettings} {home : Location} {pipe : Nat} {inbound : Option Nat} {waiting : List Message}
  {h h' : Host} {c : PipeClient} {origin : UInt32}

structure Attached (settings : PipeSettings) (home : Location) (pipe : Nat) (h : Host) (c : PipeClient) : Prop where
  path : c.path = settings.clientPath c.origin
  unlinked : Unlinked settings c.origin h
  toServer : ∀ i ∈ c.toServer, h.Took i fun node access => node = pipe ∧ access = .write
  reader : Aside pipe c.reader h
  writer : Aside pipe c.writer h

theorem Attached.later (attached : c.Attached settings home pipe h) (later : Later h h') :
    c.Attached settings home pipe h' where
  path := attached.path
  unlinked := attached.unlinked.later later
  toServer i held := (attached.toServer i held).later later
  reader := attached.reader.later later
  writer := attached.writer.later later

variable (line : OwnPipe (inboundPlace home) pipe inbound waiting h) (leads : Leads settings home h)

include line

theorem unlink_spares (leads : Leads settings home h) (origin : UInt32) :
    Spares pipe h (h.unlink (settings.clientPath origin)).2 :=
  spares_unlink line.sound fun _ walked at? => line.nodeOf?_client origin
    (leads.place_eq (PipeSettings.plainName_clientName origin) (fun follow => by cases follow) walked ▸ at?)

/-- A client sends a frame with its own origin behind the others, or nothing. -/
theorem send_cases (attached : c.Attached settings home pipe h) (m : Message) :
    (∃ f, send m (c, h) = (.error f, c, h)) ∨
      ∃ h', send m (c, h) = (.ok (), c, h') ∧ Later h h' ∧
        OwnPipe (inboundPlace home) pipe inbound (waiting ++ [{ m with origin := c.origin }]) h' := by
  cases held : c.toServer with
  | none => exact .inl ⟨_, send_closed held⟩
  | some i =>
    cases stamped : stampedFrame c.origin m with
    | error f => exact .inl ⟨f, send_misfit held stamped⟩
    | ok frame =>
      obtain ⟨rfl, encodes⟩ := stampedFrame_eq_ok stamped
      rw [send_written held stamped]
      cases found : h.handle? i with
      | none =>
        refine .inl ⟨.ofTransfer ⟨9⟩, ?_⟩
        rw [writeFrame, Host.write, found]
      | some x =>
        obtain ⟨e, failed⟩ | ⟨buffer, wrote, line'⟩ :=
          line.write found ((attached.toServer i held).2 x found).1 encodes
        · refine .inl ⟨.ofTransfer e, ?_⟩
          rw [writeFrame, failed]
        · refine .inr ⟨_, ?_, line.later_setContent buffer, line'⟩
          rw [writeFrame, wrote]
          rfl

theorem closeHeld_keeps (attached : c.Attached settings home pipe h) :
    OwnPipe (inboundPlace home) pipe inbound waiting (closeHeld c.toServer h) ∧
      Later h (closeHeld c.toServer h) := by
  cases held : c.toServer with
  | none => exact ⟨line, .refl line.sound⟩
  | some i => exact ⟨line.close fun x found => ((attached.toServer i held).2 x found).2, later_close line.sound i⟩

theorem close_spares (leads : Leads settings home h) (attached : c.Attached settings home pipe h)
    (isOpen : c.closed = false) : Spares pipe (closeHeld c.toServer h) (close (c, h)).2 := by
  obtain ⟨line, leaving⟩ := closeHeld_keeps line attached
  have reader := (attached.reader.later leaving).closeHeld line.sound
  have writer := (attached.writer.later (leaving.trans reader.toLater)).closeHeld reader.sound
  have closing := reader.trans writer
  have unlinking := unlink_spares (line.spares closing) (leads.later (leaving.trans closing.toLater)) c.origin
  rw [close_open isOpen, attached.path]
  exact closing.trans unlinking

theorem close_keeps (leads : Leads settings home h) (attached : c.Attached settings home pipe h) :
    OwnPipe (inboundPlace home) pipe inbound waiting (close (c, h)).2 ∧ Later h (close (c, h)).2 := by
  cases closed : c.closed with
  | true =>
    rw [close_closed closed]
    exact ⟨line, .refl line.sound⟩
  | false =>
    have spares := close_spares line leads attached closed
    obtain ⟨line, leaving⟩ := closeHeld_keeps line attached
    exact ⟨line.spares spares, leaving.trans spares.toLater⟩

omit line in
theorem close_attached (attached : c.Attached settings home pipe h) (later : Later h h') :
    (close (c, h)).1.Attached settings home pipe h' := by
  have still := attached.later later
  cases closed : c.closed with
  | true =>
    rw [close_closed closed]
    exact still
  | false =>
    rw [close_open closed]
    exact ⟨still.path, still.unlinked, fun _ none => (by cases none), .none, .none⟩

theorem replacePipe_spares (leads : Leads settings home h) (permissions : UInt32) (origin : UInt32) :
    Spares pipe h (replacePipe (settings.clientPath origin) permissions h).2 ∧
      ((replacePipe (settings.clientPath origin) permissions h).1 = .ok () →
        Unlinked settings origin (replacePipe (settings.clientPath origin) permissions h).2) := by
  have removing := unlink_spares line leads origin
  obtain ⟨f, failed⟩ | ⟨place, walked, free, made⟩ := replacePipe_cases (settings.clientPath origin) permissions h
  · rw [failed]
    exact ⟨removing, fun failed => by cases failed⟩
  · have line' := line.spares removing
    have making : Spares pipe _ (create _ place ⟨.pipe {}, grant permissions.toNat⟩) :=
      spares_create line'.sound free (by simp) (by simp) line'.lt_nodes
    have leads' := leads.later removing.toLater
    have own : ∀ {h : Host} {p}, Leads settings home h → h.walk false (settings.clientPath origin) = .ok p →
        p = home ++ [PipeSettings.clientName origin] := fun leads walked =>
      leads.place_eq (PipeSettings.plainName_clientName origin) (fun follow => by cases follow) walked
    rw [made]
    refine ⟨removing.trans making, fun _ p walked' target => ?_⟩
    rw [own (leads'.later making.toLater) walked', ← own leads' walked, Host.content?,
      node?_create_self line'.sound free]
    simp

abbrev writing (pipe : Nat) : Handle := { node := pipe, access := .write }

/-- A client connects only while the server has its pipe open. -/
theorem connect_cases (leads : Leads settings home h) :
    (∃ f, connect settings h = (.error f, h)) ∨
      connect settings h = (.ok h.handles.length, h.adding (some (writing pipe))) ∧ ∃ i, inbound = some i := by
  obtain ⟨e, failed⟩ | ⟨opened, held⟩ := line.openPath_serverPath leads .write
  · exact .inl ⟨_, connect_failed failed⟩
  · exact .inr ⟨connect_opened opened, held rfl⟩

/-- A client that comes has the server's pipe open for writing, and one that fails leaves nothing open. -/
theorem openOn_keeps (leads : Leads settings home h) (origin : UInt32) :
    OwnPipe (inboundPlace home) pipe inbound waiting (openOn settings origin h).2 ∧
      Later h (openOn settings origin h).2 ∧
      ∀ c, (openOn settings origin h).1 = .ok c → c.origin = origin ∧
        c.Attached settings home pipe (openOn settings origin h).2 := by
  obtain ⟨f, failed⟩ | ⟨connected, i, rfl⟩ := connect_cases line leads
  · rw [openOn_unconnected failed]
    exact ⟨line, .refl line.sound, fun c opened => by cases opened⟩
  · have joined := line.adding_writer (x := writing pipe) rfl rfl
    have joining : Later h (h.adding (some (writing pipe))) := later_adding line.sound line.lt_nodes
    have took : (h.adding (some (writing pipe))).Took h.handles.length fun node access =>
        node = pipe ∧ access = .write := took_adding ⟨rfl, rfl⟩
    have replacing := replacePipe_spares joined (leads.later joining) settings.permissions origin
    rcases made : replacePipe (settings.clientPath origin) settings.permissions (h.adding (some (writing pipe))) with
      ⟨_ | _, h'⟩ <;> rw [made] at replacing <;> obtain ⟨replacing, unlinked⟩ := replacing
    · rw [openOn_unmade connected made]
      have later := joining.trans replacing.toLater
      refine ⟨(joined.spares replacing).close fun x found => ?_, later.trans (later_close replacing.sound _),
        fun c opened => by cases opened⟩
      exact ((took.later replacing.toLater).2 x found).2
    · rw [openOn_made connected made]
      refine ⟨joined.spares replacing, joining.trans replacing.toLater, ?_⟩
      rintro c ⟨⟩
      refine ⟨rfl, rfl, unlinked rfl, ?_, .none, .none⟩
      rintro j ⟨⟩
      exact took.later replacing.toLater

theorem replyBegin_keeps (leads : Leads settings home h) (attached : c.Attached settings home pipe h) :
    Spares pipe h (replyBegin (c, h)).2.2 ∧
      (replyBegin (c, h)).2.1.Attached settings home pipe (replyBegin (c, h)).2.2 := by
  cases closed : c.closed with
  | true =>
    rw [replyBegin_closed closed]
    exact ⟨.refl line.sound, attached⟩
  | false =>
    by_cases both : c.reader.isSome ∧ c.writer.isSome
    · rw [replyBegin_again closed both]
      exact ⟨.refl line.sound, attached⟩
    have first := line.openPath_clientPath leads attached.unlinked .read false
    rw [← attached.path] at first
    obtain ⟨e, failed⟩ | ⟨h₁, opened, reading, reader⟩ := first
    · rw [replyBegin_unread closed both failed]
      exact ⟨.refl line.sound, attached⟩
    have second := (line.spares reading).openPath_clientPath (leads.later reading.toLater)
      (attached.unlinked.later reading.toLater) .write true
    rw [← attached.path] at second
    obtain ⟨e, failed⟩ | ⟨h₂, opened', writing, writer⟩ := second
    · have closing := spares_close reading.sound (reader _ rfl).2
      rw [replyBegin_unwritten closed both opened failed]
      exact ⟨reading.trans closing, (attached.later reading.toLater).later closing.toLater⟩
    · have reader := reader.later writing.toLater
      have tuning := spares_makeBlocking writing.sound (reader _ rfl).2
      have whole := reading.trans (writing.trans tuning)
      have still := attached.later whole.toLater
      rw [replyBegin_opened closed both opened opened']
      exact ⟨whole, still.path, still.unlinked, still.toServer, reader.later tuning.toLater, writer.later tuning.toLater⟩

theorem replyReceive_keeps (attached : c.Attached settings home pipe h) :
    (replyReceive (c, h)).2.1 = c ∧ Spares pipe h (replyReceive (c, h)).2.2 := by
  cases held : c.reader with
  | none =>
    rw [replyReceive_unbegun held]
    exact ⟨rfl, .refl line.sound⟩
  | some i =>
    have reading := (later_read (i := i) line.sound Frame.size).2 (attached.reader i held).2
    rw [replyReceive_snd held]
    exact ⟨rfl, reading⟩

end PipeClient

end DiscCatalog
