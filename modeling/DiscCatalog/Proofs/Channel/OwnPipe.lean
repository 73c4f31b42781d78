import DiscCatalog.Proofs.Channel.Loop
import DiscCatalog.Proofs.Host.Handles
import DiscCatalog.Channel.NamedPipe

namespace DiscCatalog

namespace PipeBuffer

theorem freshPages_nil (room : Nat) : freshPages room [] = [] := by
  cases room <;> rfl

/-- What fits on a page is written as a whole or not at all. -/
theorem write_whole {bs : List UInt8} (short : bs.length < pageSize) (maxPages : Nat) (b : PipeBuffer) :
    (b.write maxPages bs).1 = 0 ∨ (b.write maxPages bs).1 = bs.length := by
  have whole : bs.take (bs.length % pageSize) = bs := by rw [Nat.mod_eq_of_lt short, List.take_length]
  have onto : ∀ room, filled (freshPages room bs) = 0 ∨ filled (freshPages room bs) = bs.length := by
    intro room
    cases room with
    | zero => exact .inl rfl
    | succ room =>
      cases bs with
      | nil => exact .inl rfl
      | cons b rest =>
        refine .inr ?_
        rw [freshPages, filled, List.drop_eq_nil_of_le (Nat.le_of_lt short),
          List.take_of_length_le (Nat.le_of_lt short), freshPages_nil, filled, Nat.add_zero]
        simp
  unfold write
  simp only [whole]
  cases (if bs.isEmpty then none else appendLast bs b.pages) with
  | some pages =>
    simp only [Option.isSome_some, ↓reduceIte, List.drop_length, freshPages_nil, filled]
    exact .inr rfl
  | none =>
    simp only [Option.isSome_none, Bool.false_eq_true, ↓reduceIte, Nat.zero_add]
    exact onto _

end PipeBuffer

theorem Message.frame_eq_cons (m : Message) : ∃ b bs, m.frame = b :: bs :=
  ⟨_, _, rfl⟩

/-- The pipe that a server or a client made at a place. `inbound` is the handle by which its owner reads it, if it
holds one, and `waiting` are the messages whose frames are in it. -/
structure OwnPipe (place : Location) (pipe : Nat) (inbound : Option Nat) (waiting : List Message) (h : Host) :
    Prop where
  sound : h.Sound
  name : h.nodeOf? place = some pipe
  buffer : ∃ b : PipeBuffer, h.contentOf? pipe = some (.pipe b) ∧ b.content = waiting.flatMap Message.frame
  encode : ∀ m ∈ waiting, m.Encodes
  reader : ∀ i ∈ inbound, ∃ x, h.handle? i = some x ∧ x.node = pipe ∧ x.access = .read ∧ x.blocking = true
  alone : ∀ {i x}, h.handle? i = some x → x.node = pipe → x.access = .read → i ∈ inbound
  idle : inbound = none → waiting = [] ∧ ∀ {i x}, h.handle? i = some x → x.node ≠ pipe

namespace OwnPipe

open Host

variable {place : Location} {pipe i : Nat} {inbound : Option Nat} {waiting rest : List Message} {m : Message}
  {h h' : Host} {x : Handle}

theorem spares (line : OwnPipe place pipe inbound waiting h) (spares : Spares pipe h h') :
    OwnPipe place pipe inbound waiting h' where
  sound := spares.sound
  name := (spares.name place).2 line.name
  buffer := by rw [spares.content]; exact line.buffer
  encode := line.encode
  reader i held := by
    obtain ⟨x, found, node, access⟩ := line.reader i held
    exact ⟨x, (spares.handle i x node).2 found, node, access⟩
  alone found node access := line.alone ((spares.handle _ _ node).1 found) node access
  idle none := ⟨(line.idle none).1, fun found node => (line.idle none).2 ((spares.handle _ _ node).1 found) node⟩

theorem of_create (sound : h.Sound) (free : h.nodeOf? place = none) (permissions : Nat) :
    OwnPipe place h.nodes.length none [] (h.create place ⟨.pipe {}, permissions⟩) where
  sound := sound.create free
  name := nodeOf?_create_self free _
  buffer := ⟨{}, by simp [contentOf?, create], rfl⟩
  encode := by simp
  reader := by simp
  alone found node _ := absurd (node ▸ sound.held found) (Nat.lt_irrefl _)
  idle _ := ⟨rfl, fun found node => absurd (node ▸ sound.held found) (Nat.lt_irrefl _)⟩

theorem lt_nodes (line : OwnPipe place pipe inbound waiting h) : pipe < h.nodes.length := line.sound.there line.name

theorem held_of_handle (line : OwnPipe place pipe inbound waiting h) (found : h.handle? i = some x)
    (node : x.node = pipe) : ∃ i, inbound = some i := by
  cases held : inbound with
  | none => exact absurd node ((line.idle held).2 found)
  | some i => exact ⟨i, rfl⟩

theorem hasReader_iff (line : OwnPipe place pipe inbound waiting h) : h.hasReader pipe = true ↔ inbound.isSome := by
  rw [Host.hasReader_iff]
  constructor
  · rintro ⟨i, x, found, node, access⟩
    exact Option.isSome_of_mem (line.alone found node access)
  · intro some
    obtain ⟨i, held⟩ := Option.isSome_iff_exists.1 some
    obtain ⟨x, found, node, access, -⟩ := line.reader i held
    exact ⟨i, x, found, node, access⟩

theorem adding_writer (line : OwnPipe place pipe (some i) waiting h) (node : x.node = pipe)
    (access : x.access = .write) : OwnPipe place pipe (some i) waiting (h.adding (some x)) where
  sound := (later_adding line.sound (node ▸ line.lt_nodes)).sound
  name := line.name
  buffer := line.buffer
  encode := line.encode
  reader j held := by
    obtain ⟨y, found, rest⟩ := line.reader j held
    exact ⟨y, handle?_adding_iff.2 (.inl found), rest⟩
  alone found node' access' := by
    obtain old | ⟨-, same⟩ := handle?_adding_iff.1 found
    · exact line.alone old node' access'
    · cases same
      rw [access] at access'
      cases access'
  idle none := by cases none

theorem adding_reader (line : OwnPipe place pipe none waiting h) (node : x.node = pipe) (access : x.access = .read)
    (blocking : x.blocking = true) :
    OwnPipe place pipe (some h.handles.length) [] (h.adding (some x)) where
  sound := (later_adding line.sound (node ▸ line.lt_nodes)).sound
  name := line.name
  buffer := (line.idle rfl).1 ▸ line.buffer
  encode := by simp
  reader j held := by
    cases held
    exact ⟨x, handle?_adding _, node, access, blocking⟩
  alone found node' _ := by
    obtain old | ⟨same, -⟩ := handle?_adding_iff.1 found
    · exact absurd node' ((line.idle rfl).2 old)
    · exact same ▸ rfl
  idle none := by cases none

theorem close (line : OwnPipe place pipe inbound waiting h)
    (writes : ∀ x, h.handle? i = some x → x.access = .write) :
    OwnPipe place pipe inbound waiting (h.close i) := by
  by_cases on : ∃ x, h.handle? i = some x ∧ x.node = pipe
  · obtain ⟨x, held, node⟩ := on
    obtain ⟨j, rfl⟩ := line.held_of_handle held node
    obtain ⟨y, reads, node', access, blocking⟩ := line.reader j rfl
    have other : j ≠ i := by
      rintro rfl
      rw [writes y reads] at access
      cases access
    have same : h.close i = h.removing i := by
      obtain same | ⟨last, -⟩ := close_eq held
      · exact same
      · exact absurd (node'.trans node.symm) (last j y other reads)
    rw [same]
    refine ⟨(later_removing line.sound).sound, line.name, line.buffer, line.encode, ?_, ?_, fun none => by cases none⟩
    · intro k held
      cases held
      exact ⟨y, by rw [handle?_removing, if_neg other, reads], node', access, blocking⟩
    · exact fun found => line.alone (handle?_of_removing found).1
  · exact line.spares (spares_close line.sound fun x held node => on ⟨x, held, node⟩)

/-- The owner lets go of an empty pipe to which nobody writes. -/
theorem release (line : OwnPipe place pipe (some i) [] h) (noWriter : h.hasWriter pipe = false) :
    OwnPipe place pipe none [] (h.close i) where
  sound := (later_close line.sound i).sound
  name := by
    obtain ⟨x, held, -⟩ := line.reader i rfl
    obtain same | ⟨-, -, same⟩ := close_eq held <;> exact same ▸ line.name
  buffer := by
    obtain ⟨b, content, empty⟩ := line.buffer
    obtain ⟨x, held, node, -⟩ := line.reader i rfl
    obtain same | ⟨-, -, same⟩ := close_eq held
    · exact ⟨b, same ▸ content, empty⟩
    · refine ⟨{}, ?_, rfl⟩
      rw [same, node, contentOf?_setContent]
      change (h.contentOf? pipe).map _ = _
      rw [content]
      rfl
  encode := by simp
  reader := by simp
  alone found node access := by
    obtain ⟨found, other⟩ := handle?_of_close found
    cases line.alone found node access
    exact absurd rfl other
  idle _ := by
    refine ⟨rfl, fun {j x} found node => ?_⟩
    obtain ⟨found, other⟩ := handle?_of_close found
    cases access : x.access with
    | read =>
      cases line.alone found node access
      exact absurd rfl other
    | write =>
      rw [Bool.eq_false_iff, ne_eq, Host.hasWriter_iff] at noWriter
      exact noWriter ⟨j, x, found, node, access⟩

theorem later_setContent (line : OwnPipe place pipe inbound waiting h) (b : PipeBuffer) :
    Later h (h.setContent pipe (.pipe b)) :=
  Host.later_setContent line.sound (by simp) (by simp)

theorem setContent (line : OwnPipe place pipe inbound waiting h) (held : ∃ i, inbound = some i) {b : PipeBuffer}
    (content : b.content = rest.flatMap Message.frame) (encode : ∀ m ∈ rest, m.Encodes) :
    OwnPipe place pipe inbound rest (h.setContent pipe (.pipe b)) where
  sound := line.sound.setContent pipe _
  name := line.name
  buffer := by
    obtain ⟨old, there, -⟩ := line.buffer
    refine ⟨b, ?_, content⟩
    rw [contentOf?_setContent, there]
    rfl
  encode := encode
  reader := line.reader
  alone := line.alone
  idle none := by
    obtain ⟨i, held⟩ := held
    cases none.symm.trans held

/-- A frame goes into the pipe as a whole, behind the others, or not at all. -/
theorem write (line : OwnPipe place pipe inbound waiting h) (held : h.handle? i = some x) (node : x.node = pipe)
    (encodes : m.Encodes) :
    (∃ e, h.write i m.frame = (.error e, h)) ∨
      ∃ b, h.write i m.frame = (.ok Frame.size, h.setContent pipe (.pipe b)) ∧
        OwnPipe place pipe inbound (waiting ++ [m]) (h.setContent pipe (.pipe b)) := by
  obtain ⟨b, content, frames⟩ := line.buffer
  have length := Message.length_frame encodes
  have some : m.frame.isEmpty = false := rfl
  have short : m.frame.length < PipeBuffer.pageSize := by rw [length]; decide
  have whole := PipeBuffer.write_whole short h.pipePages b
  have put := PipeBuffer.content_write h.pipePages m.frame b
  unfold Host.write
  rw [held]
  simp only [node, content, some]
  split
  · exact .inl ⟨_, rfl⟩
  · split
    · next none => cases none
    split
    · exact .inl ⟨_, rfl⟩
    · next taken =>
      have all := whole.resolve_left taken
      rw [all, List.take_length, frames] at put
      refine .inr ⟨(b.write h.pipePages m.frame).2, by rw [all, length],
        line.setContent (line.held_of_handle held node) ?_ ?_⟩
      · rw [put, List.flatMap_append, List.flatMap_cons, List.flatMap_nil, List.append_nil]
      · exact List.forall_mem_append.2 ⟨line.encode, by simpa using encodes⟩

theorem read_cons (line : OwnPipe place pipe (some i) (m :: rest) h) :
    ∃ b, h.read i Frame.size = (.ok m.frame, h.setContent pipe (.pipe b)) ∧
      OwnPipe place pipe (some i) rest (h.setContent pipe (.pipe b)) := by
  obtain ⟨b, content, frames⟩ := line.buffer
  obtain ⟨x, held, node, -⟩ := line.reader i rfl
  have length := Message.length_frame (line.encode m List.mem_cons_self)
  rw [List.flatMap_cons] at frames
  have some : b.content.isEmpty = false := by rw [frames]; rfl
  refine ⟨(b.read Frame.size).2, ?_, line.setContent ⟨i, rfl⟩ ?_ fun m there => line.encode m (List.mem_cons_of_mem _ there)⟩
  · unfold Host.read
    rw [held]
    simp only [node, content, some]
    rw [PipeBuffer.read_fst, frames, ← length, List.take_left]
    rfl
  · rw [PipeBuffer.content_read, frames, ← length, List.drop_left]

theorem read_message (line : OwnPipe place pipe (some i) (m :: rest) h) :
    ∃ b bs buffer, h.read i Frame.size = (.ok (b :: bs), h.setContent pipe (.pipe buffer)) ∧
      messageOfRead (b :: bs) = .ok m ∧ OwnPipe place pipe (some i) rest (h.setContent pipe (.pipe buffer)) := by
  obtain ⟨buffer, read, line'⟩ := line.read_cons
  obtain ⟨b, bs, frame⟩ := Message.frame_eq_cons m
  have decoded := messageOfRead_frame (line.encode m List.mem_cons_self)
  rw [frame] at read decoded
  exact ⟨b, bs, buffer, read, decoded, line'⟩

theorem read_nil (line : OwnPipe place pipe (some i) [] h) :
    h.read i Frame.size = if h.hasWriter pipe then (.error .interrupted, h) else (.ok [], h) := by
  obtain ⟨b, content, empty⟩ := line.buffer
  obtain ⟨x, held, node, -, blocking⟩ := line.reader i rfl
  unfold Host.read
  rw [held]
  simp only [node, content, empty, blocking]
  rfl

theorem read_waits (line : OwnPipe place pipe (some i) [] h) (writes : h.hasWriter pipe = true) :
    h.read i Frame.size = (.error .interrupted, h) := by
  rw [line.read_nil, if_pos writes]

theorem read_ends (line : OwnPipe place pipe (some i) [] h) (noWriter : h.hasWriter pipe = false) :
    h.read i Frame.size = (.ok [], h) := by
  rw [line.read_nil, if_neg (by rw [noWriter]; exact Bool.false_ne_true)]

end OwnPipe

end DiscCatalog
