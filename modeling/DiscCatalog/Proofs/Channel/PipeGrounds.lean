import DiscCatalog.Proofs.Channel.ReplyPipe
import DiscCatalog.Proofs.Host.Calm

namespace DiscCatalog

open Host

namespace PipeBuffer

variable {k maxPages : Nat} {bs : List UInt8} {b : PipeBuffer} {pages more : List Page}

/-- Something is unread on every page, and there are so many pages at most. -/
structure Laid (k : Nat) (b : PipeBuffer) : Prop where
  unread : ∀ p ∈ b.pages, p.unread ≠ []
  few : b.pages.length ≤ k

theorem laid_empty (k : Nat) : Laid k {} := ⟨by simp, Nat.zero_le _⟩

theorem Laid.eq_empty (laid : b.Laid k) (none : b.content = []) : b = {} := by
  have unread : ∀ p ∈ b.pages, p.unread = [] := List.flatMap_eq_nil_iff.1 none
  have empty : b.pages = [] := List.eq_nil_iff_forall_not_mem.2 fun p there => laid.unread p there (unread p there)
  obtain ⟨pages⟩ := b
  cases empty
  rfl

theorem appendLast_laid (found : appendLast bs pages = some more) (unread : ∀ p ∈ pages, p.unread ≠ []) :
    (∀ p ∈ more, p.unread ≠ []) ∧ more.length = pages.length := by
  induction pages generalizing more with
  | nil => cases found
  | cons page rest ih =>
    obtain ⟨first, others⟩ := List.forall_mem_cons.1 unread
    cases rest with
    | nil =>
      rw [appendLast] at found
      split at found
      · cases found
        exact ⟨by simp [first], rfl⟩
      · cases found
    | cons next rest =>
      obtain ⟨tail, added, rfl⟩ := Option.map_eq_some_iff.1 found
      obtain ⟨unread, length⟩ := ih added others
      exact ⟨List.forall_mem_cons.2 ⟨first, unread⟩, congrArg Nat.succ length⟩

theorem freshPages_short (some : bs ≠ []) (short : bs.length < pageSize) (room : Nat) :
    freshPages (room + 1) bs = [⟨bs.length, bs⟩] := by
  cases bs with
  | nil => exact absurd rfl some
  | cons byte rest =>
    rw [freshPages, List.take_of_length_le (Nat.le_of_lt short), List.drop_eq_nil_of_le (Nat.le_of_lt short),
      freshPages_nil]
    simp

/-- What is short is put on the last page, on one page more if there is room for it, or nowhere. -/
theorem Laid.write (laid : b.Laid k) (some : bs ≠ []) (short : bs.length < pageSize) :
    (b.write maxPages bs).2.Laid (k + 1) ∧ ((b.write maxPages bs).1 = 0 → maxPages ≤ k) := by
  have whole : bs.take (bs.length % pageSize) = bs := by rw [Nat.mod_eq_of_lt short, List.take_length]
  have length : bs.length ≠ 0 := fun none => some (List.length_eq_zero_iff.1 none)
  have full : bs.isEmpty = false := by simpa using some
  unfold PipeBuffer.write
  simp only [whole, full]
  cases found : appendLast bs b.pages with
  | some pages =>
    obtain ⟨unread, same⟩ := appendLast_laid found laid.unread
    simp only [Bool.false_eq_true, ↓reduceIte, Option.isSome_some, List.drop_length, freshPages_nil, Option.getD_some,
      List.append_nil, filled, Nat.add_zero]
    exact ⟨⟨unread, same ▸ Nat.le_succ_of_le laid.few⟩, fun none => absurd none length⟩
  | none =>
    simp only [Bool.false_eq_true, ↓reduceIte, Option.isSome_none, Option.getD_none, Nat.zero_add]
    cases left : maxPages - b.pages.length with
    | zero =>
      rw [freshPages, List.append_nil]
      exact ⟨⟨laid.unread, Nat.le_succ_of_le laid.few⟩, fun _ => (Nat.sub_eq_zero_iff_le.1 left).trans laid.few⟩
    | succ left =>
      rw [freshPages_short some short]
      refine ⟨⟨List.forall_mem_append.2 ⟨laid.unread, List.forall_mem_singleton.2 some⟩, ?_⟩, fun none => absurd none length⟩
      rw [List.length_append, List.length_singleton]
      exact Nat.succ_le_succ laid.few

theorem takePages_laid (room : Nat) (unread : ∀ p ∈ pages, p.unread ≠ []) :
    (∀ p ∈ (takePages room pages).2, p.unread ≠ []) ∧ (takePages room pages).2.length ≤ pages.length := by
  induction pages generalizing room with
  | nil => exact ⟨unread, Nat.le_refl _⟩
  | cons page rest ih =>
    obtain ⟨first, others⟩ := List.forall_mem_cons.1 unread
    unfold takePages
    split
    · obtain ⟨unread, few⟩ := ih (room - page.unread.length) others
      exact ⟨unread, Nat.le_succ_of_le few⟩
    · next part =>
      have left : page.unread.drop room ≠ [] := by simpa using part
      exact ⟨List.forall_mem_cons.2 ⟨left, others⟩, Nat.le_refl _⟩

theorem Laid.read (laid : b.Laid k) (room : Nat) : (b.read room).2.Laid k := by
  obtain ⟨unread, few⟩ := takePages_laid room laid.unread
  exact ⟨unread, few.trans laid.few⟩

end PipeBuffer

namespace Host

variable {h h' : Host} {n i k : Nat} {x : Handle} {b : PipeBuffer} {bytes : List UInt8}

/-- A pipe whose buffer is laid on so many pages at most. -/
def Laid (n k : Nat) (h : Host) : Prop := ∃ b, h.contentOf? n = some (.pipe b) ∧ b.Laid k

theorem laid_setContent (stands : ∃ old, h.contentOf? n = some old) (laid : b.Laid k) :
    Laid n k (h.setContent n (.pipe b)) := by
  obtain ⟨old, content⟩ := stands
  exact ⟨b, by rw [contentOf?_setContent, content]; rfl, laid⟩

theorem write_read (found : h.handle? i = some x) (content : h.contentOf? x.node = some (.pipe b))
    (reads : h.hasReader x.node = true) (some : bytes ≠ []) :
    h.write i bytes = if (b.write h.pipePages bytes).1 = 0 then (.error (if x.blocking then .interrupted else .tryAgain), h)
      else (.ok (b.write h.pipePages bytes).1, h.setContent x.node (.pipe (b.write h.pipePages bytes).2)) := by
  have full : bytes.isEmpty = false := by simpa using some
  unfold Host.write
  rw [found]
  simp only [content, reads, full]
  rfl

theorem Laid.steady_setContent (laid : Laid n k h) (sound : h.Sound) (b : PipeBuffer) :
    Steady n h (h.setContent n (.pipe b)) := by
  obtain ⟨old, content, -⟩ := laid
  exact .setContent sound content

theorem Laid.close (laid : Laid n k h) (i : Nat) : Laid n k (h.close i) := by
  cases held : h.handle? i with
  | none => rwa [close_of_none held]
  | some x =>
    obtain ⟨b, content, laid⟩ := laid
    obtain same | ⟨-, -, same⟩ := close_eq held
    · exact ⟨b, by rw [same]; exact content, laid⟩
    · rw [same]
      by_cases on : x.node = n
      · subst on
        exact laid_setContent (h := h.removing i) ⟨_, content⟩ (PipeBuffer.laid_empty k)
      · exact ⟨b, by rw [contentOf?_setContent_ne (Ne.symm on)]; exact content, laid⟩

theorem Laid.create (laid : Laid n k h) (place : Location) (node : Node) : Laid n k (h.create place node) := by
  obtain ⟨b, content, laid⟩ := laid
  refine ⟨b, ?_, laid⟩
  have there : n < h.nodes.length := by
    obtain ⟨node, there, -⟩ := Option.map_eq_some_iff.1 content
    exact (List.getElem?_eq_some_iff.1 there).1
  rw [contentOf?, Host.create, List.getElem?_append_left there]
  exact content

theorem Laid.of_nodes (laid : Laid n k h) (nodes : h'.nodes = h.nodes) : Laid n k h' := by
  obtain ⟨b, content, laid⟩ := laid
  exact ⟨b, by rw [contentOf?, nodes]; exact content, laid⟩

theorem Laid.spares (laid : Laid n k h) (spares : Spares n h h') : Laid n k h' := by
  obtain ⟨b, content, laid⟩ := laid
  exact ⟨b, spares.content.trans content, laid⟩

theorem Laid.read (laid : Laid n k h) (i room : Nat) : Laid n k (h.read i room).2 := by
  obtain ⟨b, content, laid⟩ := laid
  obtain same | ⟨x, -, ⟨offset, same⟩ | ⟨buffer, pipe, same⟩⟩ := read_moves i room h <;> rw [same]
  · exact ⟨b, content, laid⟩
  · exact ⟨b, content, laid⟩
  · by_cases on : x.node = n
    · rw [on] at pipe ⊢
      cases content.symm.trans pipe
      exact laid_setContent ⟨_, content⟩ (laid.read room)
    · exact ⟨b, by rw [contentOf?_setContent_ne (Ne.symm on)]; exact content, laid⟩

end Host

namespace OwnPipe

variable {place : Location} {pipe i k : Nat} {inbound : Option Nat} {waiting rest : List Message} {m : Message}
  {h : Host} {x : Handle}

/-- A frame goes into a pipe as a whole, or has to wait because no page is left. -/
theorem write_laid (line : OwnPipe place pipe inbound waiting h) (held : h.handle? i = some x) (node : x.node = pipe)
    (encodes : m.Encodes) (laid : Laid pipe k h) :
    (∃ b, h.write i m.frame = (.ok Frame.size, h.setContent pipe (.pipe b)) ∧
      OwnPipe place pipe inbound (waiting ++ [m]) (h.setContent pipe (.pipe b)) ∧
      Laid pipe (k + 1) (h.setContent pipe (.pipe b))) ∨
    h.pipePages ≤ k ∧ h.write i m.frame = (.error (if x.blocking then .interrupted else .tryAgain), h) := by
  subst node
  obtain ⟨old, content, laid⟩ := laid
  obtain ⟨j, reads⟩ := line.held_of_handle held rfl
  have some : m.frame ≠ [] := by
    obtain ⟨b, bs, frame⟩ := Message.frame_eq_cons m
    simp [frame]
  have short : m.frame.length < PipeBuffer.pageSize := by
    rw [Message.length_frame encodes]
    decide
  have wrote := write_read held content (line.hasReader_iff.2 (reads ▸ rfl)) some
  have room : (old.write h.pipePages m.frame).1 = 0 → h.pipePages ≤ k := (laid.write some short).2
  obtain ⟨e, failed⟩ | ⟨b, done, line'⟩ := line.write held rfl encodes
  · rw [wrote] at failed ⊢
    split at failed
    · next none => exact .inr ⟨room none, if_pos none⟩
    · cases failed
  · rw [done] at wrote
    split at wrote
    · cases wrote
    · have same : h.setContent x.node (.pipe b) = h.setContent x.node (.pipe (old.write h.pipePages m.frame).2) :=
        (Prod.ext_iff.1 wrote).2
      exact .inl ⟨b, done, line', same ▸ laid_setContent ⟨_, content⟩ (laid.write some short).1⟩

theorem bare_of_laid (line : OwnPipe place pipe inbound [] h) (laid : Laid pipe k h) : Laid pipe 0 h := by
  obtain ⟨b, content, laid⟩ := laid
  obtain ⟨b', content', none⟩ := line.buffer
  cases content.symm.trans content'
  exact ⟨b, content, laid.eq_empty none ▸ PipeBuffer.laid_empty 0⟩

end OwnPipe

theorem calm_closeHeld (held : Option Nat) (h : Host) : Calm h (closeHeld held h) := by
  cases held with
  | none => exact .refl h
  | some i => exact calm_close i h

theorem Host.Laid.closeHeld {n k : Nat} {h : Host} (laid : Laid n k h) (held : Option Nat) :
    Laid n k (closeHeld held h) := by
  cases held with
  | none => exact laid
  | some i => exact laid.close i

namespace PipeSettings

def PipeName (name : String) : Prop := name = serverName ∨ ∃ origin, name = clientName origin

theorem PipeName.plain {name : String} (pipe : PipeName name) : PlainName name := by
  obtain rfl | ⟨origin, rfl⟩ := pipe
  · exact plainName_serverName
  · exact plainName_clientName origin

theorem PipeName.short {name : String} (pipe : PipeName name) : name.utf8ByteSize ≤ 19 := by
  obtain rfl | ⟨origin, rfl⟩ := pipe
  · decide
  · have digits : origin.toNat.repr.length ≤ 10 :=
      (Nat.length_repr_le_iff (by decide)).2 (Nat.lt_of_lt_of_le origin.toNat_lt (by decide))
    change ("cli_" ++ origin.toNat.repr ++ "_fifo").utf8ByteSize ≤ 19
    rw [String.utf8ByteSize_append, String.utf8ByteSize_append, Text.utf8ByteSize_repr]
    have front : "cli_".utf8ByteSize = 4 := by decide
    have back : "_fifo".utf8ByteSize = 5 := by decide
    omega

structure Proper (settings : PipeSettings) : Prop where
  noNul : '\x00' ∉ settings.directory.toList
  short : settings.directory.utf8ByteSize + 20 ≤ maxPath
  owned : settings.permissions.toNat &&& 0o600 = 0o600

/-- The directory of the pipes is `home`, in which pipes can be made and removed, and as much as `room` frames go into
each of them. -/
structure Grounds (settings : PipeSettings) (home : Location) (room : Nat) (h : Host) : Prop where
  proper : settings.Proper
  entered : ∃ links, h.enter settings.directory = .ok (home, links)
  changeable : ∃ node, h.node? home = some node ∧ node.content = .directory ∧ allows node .write = true
  soft : ∀ name content, PipeName name → h.content? (home ++ [name]) = some content → ¬ content.Firm
  room : room ≤ h.pipePages

namespace Grounds

variable {settings : PipeSettings} {home : Location} {room pipe : Nat} {h h' : Host} {name : String}
  {access : Access} {blocking : Bool} (grounds : settings.Grounds home room h)

include grounds

theorem later (later : Later h h') (calm : Calm h h') : settings.Grounds home room h' where
  proper := grounds.proper
  entered := by
    obtain ⟨links, entered⟩ := grounds.entered
    exact ⟨links, calm.enter entered⟩
  changeable := by
    obtain ⟨node, found, directory, may⟩ := grounds.changeable
    exact ⟨node, calm.node? found (.inl directory), directory, may⟩
  soft name content own found firm := grounds.soft name content own (later.retains _ _ firm found) firm
  room := by
    rw [calm.pages]
    exact grounds.room

theorem leads : Leads settings home h := by
  obtain ⟨links, entered⟩ := grounds.entered
  intro place links' entered'
  cases entered.symm.trans entered'
  rfl

theorem walk (own : PipeName name) (follow : Bool) :
    h.walk follow (joinPath settings.directory name) = .ok (home ++ [name]) := by
  obtain ⟨links, entered⟩ := grounds.entered
  have short := own.short
  have walkable : Walkable (joinPath settings.directory name) :=
    walkable_joinPath own.plain grounds.proper.noNul (by have := grounds.proper.short; omega)
  refine walk_of_enter entered own.plain walkable (short.trans (by decide)) follow fun _ target link => ?_
  exact grounds.soft name _ own link (.inr ⟨target, rfl⟩)

theorem mayChange (name : String) : h.mayChange (home ++ [name]) = true := by
  obtain ⟨node, found, -, may⟩ := grounds.changeable
  rw [Host.mayChange, List.dropLast_concat, found]
  exact may

theorem removeStale (sound : h.Sound) (own : PipeName name) :
    DiscCatalog.removeStale (joinPath settings.directory name) h =
        (.ok (), (h.unlink (joinPath settings.directory name)).2) ∧
      (h.unlink (joinPath settings.directory name)).2.nodeOf? (home ++ [name]) = none ∧
      Calm h (h.unlink (joinPath settings.directory name)).2 := by
  have walked := grounds.walk own false
  unfold DiscCatalog.removeStale
  cases at? : h.nodeOf? (home ++ [name]) with
  | none =>
    have nothing : h.unlink (joinPath settings.directory name) = (.error .noEntry, h) := by
      rw [Host.unlink, find_of_walk_none walked at?]
    rw [nothing]
    exact ⟨rfl, at?, .refl h⟩
  | some n =>
    obtain ⟨node, there, found⟩ := sound.exists_node at?
    have soft : ∀ content, h.content? (home ++ [name]) = some content → ¬ content.Firm :=
      fun content => grounds.soft name content own
    have content : node.content ≠ .directory := fun directory =>
      soft node.content (by rw [content?, found]; rfl) (.inl directory)
    have gone : h.unlink (joinPath settings.directory name) = (.ok (), h.forget (home ++ [name])) := by
      rw [Host.unlink, find_of_walk walked at? there]
      simp [grounds.mayChange name, content]
    rw [gone]
    exact ⟨rfl, by rw [nodeOf?_forget, if_pos rfl], calm_forget soft⟩

theorem replacePipe (sound : h.Sound) (own : PipeName name) :
    ∃ h₁, Later h h₁ ∧ Calm h h₁ ∧ h₁.nodes = h.nodes ∧ h₁.handles = h.handles ∧ h₁.nodeOf? (home ++ [name]) = none ∧
      DiscCatalog.replacePipe (joinPath settings.directory name) settings.permissions h =
        (.ok (), h₁.create (home ++ [name]) ⟨.pipe {}, grant settings.permissions.toNat⟩) := by
  obtain ⟨cleared, free, calm⟩ := grounds.removeStale sound own
  have leaving := later_unlink sound (joinPath settings.directory name)
  have same := unlink_cases (joinPath settings.directory name) h
  have nodes : (h.unlink (joinPath settings.directory name)).2.nodes = h.nodes := by
    obtain same | ⟨place, -, same⟩ := same <;> rw [same]
    rfl
  have handles : (h.unlink (joinPath settings.directory name)).2.handles = h.handles := by
    obtain same | ⟨place, -, same⟩ := same <;> rw [same]
    rfl
  have still := grounds.later leaving calm
  refine ⟨_, leaving, calm, nodes, handles, free, ?_⟩
  unfold DiscCatalog.replacePipe
  rw [cleared]
  simp [makePipe, make, still.walk own false, free, still.mayChange name]

theorem openPath (own : PipeName name) (stands : PipeAt h (home ++ [name]) pipe) (usable : Usable pipe h)
    (meets : h.meets pipe access blocking = .ok ()) :
    h.openPath (joinPath settings.directory name) access blocking =
      (.ok h.handles.length, h.adding (some { node := pipe, access, blocking })) := by
  obtain ⟨at?, b, content⟩ := stands
  obtain ⟨node, there, pipe⟩ := Option.map_eq_some_iff.1 content
  rw [Host.openPath, find_of_walk (grounds.walk own true) at? there]
  simp [pipe, usable.allows there access, meets, hold, adding]

/-- A client that leaves takes nothing away that anybody else needs. -/
theorem calm_close {c : PipeClient} (sound : h.Sound) (isOpen : c.closed = false)
    (path : c.path = settings.clientPath c.origin) : Calm h (PipeClient.close (c, h)).2 := by
  have calm := (calm_closeHeld c.toServer h).trans ((calm_closeHeld c.reader _).trans (calm_closeHeld c.writer _))
  have first := later_closeHeld sound c.toServer
  have second := first.trans (later_closeHeld first.sound c.reader)
  have third := second.trans (later_closeHeld second.sound c.writer)
  rw [PipeClient.close_open isOpen, path]
  exact calm.trans ((grounds.later third calm).removeStale third.sound (.inr ⟨c.origin, rfl⟩)).2.2

end Grounds

end PipeSettings

end DiscCatalog
