import DiscCatalog.Proofs.Frame.Demands
import DiscCatalog.Proofs.Frame.Layout

namespace DiscCatalog

theorem LittleEndian.toNat_toUInt32_take (bytes : List UInt8) :
    (toUInt32 (bytes.take 4)).toNat = decode (bytes.take 4) := by
  have small := decode_lt (bytes.take 4)
  have room : Nat.pow 256 (bytes.take 4).length ≤ Nat.pow 256 4 :=
    Nat.pow_le_pow_right (by decide) (List.length_take_le _ _)
  exact UInt32.toNat_ofNat_of_lt (Nat.lt_of_lt_of_le small room)

namespace Field

theorem Content.HeldBy.unique {c : Content} {block other : List UInt8} (h : c.HeldBy block) (h' : c.HeldBy other)
    (length : block.length = other.length) : block = other := by
  cases c with
  | mark bytes => exact h.trans h'.symm
  | number n =>
    apply List.ext_getElem length
    intro i low high
    rw [← UInt8.toNat_inj, h.2 i low, h'.2 i high]
  | text s value =>
    obtain ⟨padding, -, rfl⟩ := h
    obtain ⟨others, -, rfl⟩ := h'
    simp only [List.length_append, List.length_replicate, Nat.add_left_cancel_iff] at length
    rw [length]

theorem LaidOut.drop_eq_of_held {bytes other : List UInt8} {place : Nat} {fields : List Field}
    (h : LaidOut other place fields) (length : bytes.length = other.length)
    (held : ∀ f ∈ fields, f.content.HeldBy (f.block bytes)) : bytes.drop place = other.drop place := by
  induction fields generalizing place with
  | nil =>
    have ends : place = other.length := h
    rw [List.drop_of_length_le (by omega), List.drop_of_length_le ends.ge]
  | cons f fs ih =>
    obtain ⟨start, -, first, rest⟩ := h
    obtain ⟨here, others⟩ := List.forall_mem_cons.1 held
    have sizes : (f.block bytes).length = (f.block other).length := by
      simp only [Field.block, List.length_take, List.length_drop, length]
    have block : f.block bytes = f.block other := here.unique first sizes
    unfold Field.block at block
    rw [start] at block
    rw [← List.take_append_drop f.width (bytes.drop place), ← List.take_append_drop f.width (other.drop place),
      block, List.drop_drop, List.drop_drop, ih rest others]

theorem LaidOut.held {bytes : List UInt8} {place : Nat} {fields : List Field} (h : LaidOut bytes place fields) :
    ∀ f ∈ fields, f.content.HeldBy (f.block bytes) := by
  induction fields generalizing place with
  | nil => exact List.forall_mem_nil _
  | cons f fs ih =>
    obtain ⟨-, -, held, rest⟩ := h
    exact List.forall_mem_cons.2 ⟨held, ih rest⟩

theorem Content.heldBy_decode (block : List UInt8) : (number (LittleEndian.decode block)).HeldBy block := by
  refine ⟨LittleEndian.decode_lt block, fun i hi => ?_⟩
  have encoded := LittleEndian.encode_decode block
  have digit := @LittleEndian.getElem_encode block.length (LittleEndian.decode block) i (by rwa [encoded])
  simpa only [encoded] using digit

end Field

namespace Slot

/-- The slot ends in NUL bytes: it holds one, and nothing else after the first. -/
def Padded (s : Slot) (frame : List UInt8) : Prop :=
  0 ∈ s.block frame ∧ ∀ b ∈ (s.block frame).dropWhile (· ≠ 0), b = 0

theorem zero_notMem_shown (s : Slot) (frame : List UInt8) : 0 ∉ s.shown frame := by
  intro zero
  have nonzero := List.mem_takeWhile_imp zero
  simp at nonzero

theorem padded_iff {s : Slot} {frame : List UInt8} : s.Padded frame ↔
    ∃ padding > 0, s.block frame = s.shown frame ++ List.replicate padding 0 := by
  have parts : s.block frame = s.shown frame ++ (s.block frame).dropWhile (· ≠ 0) :=
    List.takeWhile_append_dropWhile.symm
  have content := s.zero_notMem_shown frame
  constructor
  · rintro ⟨zero, nothing⟩
    rw [List.eq_replicate_of_mem nothing] at parts
    refine ⟨_, ?_, parts⟩
    by_contra none
    rw [Nat.eq_zero_of_not_pos none, List.replicate_zero, List.append_nil] at parts
    exact content (parts ▸ zero)
  · rintro ⟨padding, some, same⟩
    have after : (s.block frame).dropWhile (· ≠ 0) = List.replicate padding 0 :=
      List.append_cancel_left (parts.symm.trans same)
    refine ⟨?_, ?_⟩
    · rw [same, List.mem_append]
      exact .inr (List.mem_replicate.2 ⟨some.ne', rfl⟩)
    · rw [after]
      exact fun b hb => List.eq_of_mem_replicate hb

end Slot

namespace Message

def textOf (m : Message) : Slot → String
  | .catalog => m.catalog.catalog
  | .title => m.catalog.title
  | .kind => m.catalog.kind
  | .artist => m.catalog.artist
  | .trackCatalog => m.track.catalog
  | .trackText => m.track.text
  | .diagnostic => m.diagnostic

theorem exists_slot_of_mem_texts {m : Message} {t : Slot × String} (h : t ∈ m.texts) :
    ∃ s, t = (s, m.textOf s) := by
  simp only [texts, CatalogEntry.texts, TrackEntry.texts, List.cons_append, List.nil_append, List.mem_cons,
    List.not_mem_nil, or_false] at h
  rcases h with rfl | rfl | rfl | rfl | rfl | rfl | rfl <;> exact ⟨_, rfl⟩

theorem mem_fields (m : Message) (s : Slot) : (⟨s.offset, s.width, .text s (m.textOf s)⟩ : Field) ∈ m.fields := by
  cases s with
  | catalog => exact List.mem_of_getElem? (show m.fields[5]? = _ from rfl)
  | title => exact List.mem_of_getElem? (show m.fields[6]? = _ from rfl)
  | kind => exact List.mem_of_getElem? (show m.fields[7]? = _ from rfl)
  | artist => exact List.mem_of_getElem? (show m.fields[8]? = _ from rfl)
  | trackCatalog => exact List.mem_of_getElem? (show m.fields[9]? = _ from rfl)
  | trackText => exact List.mem_of_getElem? (show m.fields[11]? = _ from rfl)
  | diagnostic => exact List.mem_of_getElem? (show m.fields[12]? = _ from rfl)

theorem read_of_decode {frame : List UInt8} {m : Message} (h : decode frame = .ok m) (s : Slot) :
    s.read (s.block frame) = .ok (m.textOf s) := by
  rw [decode_eq_settle, Frame.Demand.settle_eq_ok_iff] at h
  obtain ⟨rfl, met⟩ := h
  have asked : Frame.Demand.text s ∈ Frame.Demand.all := by cases s <;> decide
  have shown : (Frame.content frame).textOf s = s.textIn frame := by cases s <;> rfl
  rw [Frame.read_block, Frame.Demand.settle_of_met (met _ asked), shown]
  rfl

theorem bytes_textOf {frame : List UInt8} {m : Message} (h : decode frame = .ok m) (s : Slot) :
    Text.bytes (m.textOf s) = s.shown frame :=
  Slot.read_eq_ok_iff.1 (read_of_decode h s)

/-- A frame that was read and ends its slots in NUL bytes holds the fields of its message. -/
theorem held_of_decode {frame : List UInt8} {m : Message} (h : decode frame = .ok m)
    (padded : ∀ s : Slot, s.Padded frame) : ∀ f ∈ m.fields, f.content.HeldBy (f.block frame) := by
  have texts (s : Slot) : (Field.Content.text s (m.textOf s)).HeldBy (s.block frame) := by
    obtain ⟨padding, some, same⟩ := Slot.padded_iff.1 (padded s)
    exact ⟨padding, some, by rw [bytes_textOf h s, same]⟩
  rw [decode_eq_settle, Frame.Demand.settle_eq_ok_iff] at h
  obtain ⟨rfl, met⟩ := h
  have mark : frame.take 4 = [0x43, 0x44, 0x49, 0x50] := met .mark (by decide)
  have version : LittleEndian.decode ((frame.drop 4).take 2) = 1 := by
    rw [Frame.decode_take_drop, Frame.decode_take_drop]
    exact met .version (by decide)
  have operation : LittleEndian.decode ((frame.drop 6).take 1) = (Frame.content frame).operation.tag := by
    have known : ∀ n ≤ 7, n = ((Operation.ofTag? n).getD default).tag := by decide
    rw [Frame.decode_take_drop]
    exact known _ (met .operation (by decide))
  have status : LittleEndian.decode ((frame.drop 7).take 1) = (Frame.content frame).status.tag := by
    have known : ∀ n ≤ 2, n = ((Status.ofTag? n).getD default).tag := by decide
    rw [Frame.decode_take_drop]
    exact known _ (met .status (by decide))
  have origin : LittleEndian.decode ((frame.drop 8).take 4) = (Frame.content frame).origin.toNat :=
    (LittleEndian.toNat_toUInt32_take _).symm
  have track : LittleEndian.decode ((frame.drop 247).take 4)
      = ((Frame.content frame).track.number.toInt % 2 ^ 32).toNat := by
    rw [← LittleEndian.toNat_toUInt32]
    exact (LittleEndian.toNat_toUInt32_take _).symm
  have number {start width n : Nat} (decoded : LittleEndian.decode ((frame.drop start).take width) = n) :
      (Field.Content.number n).HeldBy ((frame.drop start).take width) := by
    rw [← decoded]
    exact Field.Content.heldBy_decode _
  simp only [fields, CatalogEntry.fields, TrackEntry.fields, List.forall_mem_append, List.forall_mem_cons,
    List.not_mem_nil, false_imp_iff, implies_true, and_true]
  exact ⟨⟨⟨⟨mark, number version, number operation, number status, number origin⟩,
    texts .catalog, texts .title, texts .kind, texts .artist⟩,
    texts .trackCatalog, number track, texts .trackText⟩, texts .diagnostic⟩

theorem encode_eq_frame_iff {frame : List UInt8} {m : Message} (h : decode frame = .ok m) :
    m.encode = .ok frame ↔ ∀ s : Slot, s.Padded frame := by
  have size := (decode_eq_ok h).1
  constructor
  · intro written s
    have encodes : m.Encodes := ⟨frame, written⟩
    have same : m.frame = frame := Except.ok.inj ((encode_of_encodes encodes).symm.trans written)
    obtain ⟨padding, some, block⟩ := (takes_fields encodes).laidOut.held _ (m.mem_fields s)
    rw [same, bytes_textOf h s] at block
    exact Slot.padded_iff.2 ⟨padding, some, block⟩
  · intro padded
    have encodes : m.Encodes := by
      rw [← misfit?_eq_none_iff, misfit?, Slot.firstMisfit?_eq_none_iff]
      intro t ht
      obtain ⟨s, rfl⟩ := exists_slot_of_mem_texts ht
      exact (Slot.fits_iff_of_read (Slot.length_block size s) (read_of_decode h s)).2 (padded s).1
    have same : frame = m.frame := (takes_fields encodes).laidOut.drop_eq_of_held
      (size.trans (length_frame encodes).symm) (held_of_decode h padded)
    rw [encode_of_encodes encodes, ← same]

end Message

/-- Reading any bytes stays within them. It gives a message exactly if every demand is met, and otherwise the
fault of the first that is not; no hidden byte shows in what it gives; and a message that was read is written
as the same bytes exactly if every slot ends in NUL bytes. -/
theorem Frame.decode_by_demands (frame : List UInt8) :
    Reading.message frame = some (Message.decode frame)
      ∧ ((∃ m, Message.decode frame = .ok m) ↔ ∀ d ∈ Demand.all, d.Met frame)
      ∧ (∀ fault, Message.decode frame = .error fault ↔ ∃ before d after, Demand.all = before ++ d :: after
          ∧ (∀ e ∈ before, e.Met frame) ∧ ¬ d.Met frame ∧ fault = d.fault frame)
      ∧ (∀ other : List UInt8, other.length = frame.length → (∀ i, ¬ Hidden frame i → other[i]? = frame[i]?) →
          Message.decode other = Message.decode frame)
      ∧ ∀ m, Message.decode frame = .ok m →
          (∀ s, Text.bytes (m.textOf s) = s.shown frame) ∧ (m.encode = .ok frame ↔ ∀ s : Slot, s.Padded frame) := by
  refine ⟨Reading.message_eq frame, ?_, fun fault => ?_, fun other => decode_congr, fun m read => ?_⟩
  · simp only [Message.decode_eq_settle, Demand.settle_eq_ok_iff, exists_eq_left']
  · rw [Message.decode_eq_settle, Demand.settle_eq_error_iff]
  · exact ⟨Message.bytes_textOf read, Message.encode_eq_frame_iff read⟩

end DiscCatalog
