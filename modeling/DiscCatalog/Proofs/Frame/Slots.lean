import Mathlib.Data.List.TakeWhile
import DiscCatalog.Frame.Slot
import DiscCatalog.Proofs.Text

namespace DiscCatalog

namespace Slot

/-- A text that the slot can take: short enough and without a NUL. -/
def Fits (s : Slot) (text : String) : Prop := text.utf8ByteSize ≤ s.capacity ∧ '\x00' ∉ text.toList

instance (s : Slot) (text : String) : Decidable (s.Fits text) :=
  inferInstanceAs (Decidable (_ ∧ _))

@[simp] theorem fits_empty (s : Slot) : s.Fits "" := by cases s <;> decide

def misfit? (s : Slot) (text : String) : Option FrameFault :=
  if s.capacity < text.utf8ByteSize then some (.fieldTooLong s.label text.utf8ByteSize s.capacity)
  else if '\x00' ∈ text.toList then some (.embeddedNul s.label)
  else none

def filled (s : Slot) (text : String) : List UInt8 :=
  Text.bytes text ++ List.replicate (s.width - text.utf8ByteSize) 0

theorem misfit?_eq_none_iff {s : Slot} {text : String} : s.misfit? text = none ↔ s.Fits text := by
  unfold misfit? Fits
  split
  · next long => simp [Nat.not_le.2 long]
  · next short => split <;> simp_all

theorem write_eq (s : Slot) (text : String) :
    s.write text = match s.misfit? text with
      | some fault => .error fault
      | none => .ok (s.filled text) := by
  unfold write misfit? filled
  simp only [Text.length_bytes, Text.zero_mem_bytes]
  split
  · rfl
  · split <;> rfl

theorem length_filled {s : Slot} {text : String} (h : s.Fits text) :
    (s.filled text).length = s.width := by
  have room := h.1
  simp only [filled, List.length_append, Text.length_bytes, List.length_replicate, width]
  omega

/-- The slot keeps room for one NUL at least, which ends the text. -/
theorem takeWhile_filled {s : Slot} {text : String} (h : s.Fits text) :
    (s.filled text).takeWhile (· ≠ 0) = Text.bytes text := by
  have room : s.width - text.utf8ByteSize = (s.capacity - text.utf8ByteSize) + 1 := by
    have := h.1
    simp only [width]
    omega
  have plain : ∀ b ∈ Text.bytes text, decide (b ≠ 0) = true := by
    intro b hb
    have nonzero : b ≠ 0 := fun hz => h.2 (Text.zero_mem_bytes.1 (hz ▸ hb))
    simpa using nonzero
  rw [filled, room, List.takeWhile_append_of_pos plain, List.replicate_succ]
  simp

theorem read_eq_ok_iff {s : Slot} {block : List UInt8} {text : String} :
    s.read block = .ok text ↔ Text.bytes text = block.takeWhile (· ≠ 0) := by
  rw [← Text.ofBytes?_eq_some_iff, read]
  cases Text.ofBytes? (block.takeWhile (· ≠ 0)) <;> simp

theorem read_filled {s : Slot} {text : String} (h : s.Fits text) : s.read (s.filled text) = .ok text :=
  read_eq_ok_iff.2 (takeWhile_filled h).symm

theorem not_mem_of_read {s : Slot} {block : List UInt8} {text : String} (h : s.read block = .ok text) :
    '\x00' ∉ text.toList := by
  intro nul
  have zero := Text.zero_mem_bytes.2 nul
  rw [read_eq_ok_iff.1 h] at zero
  have nonzero := List.mem_takeWhile_imp zero
  simp at nonzero

end Slot

end DiscCatalog
