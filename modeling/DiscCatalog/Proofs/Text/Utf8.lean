import Mathlib.Data.List.TakeWhile
import DiscCatalog.Proofs.Text

namespace DiscCatalog.Text

def Trails (b : UInt8) : Prop := 0x80 ≤ b ∧ b ≤ 0xBF

inductive Utf8Char : List UInt8 → Prop
  | one {a : UInt8} : a ≤ 0x7F → Utf8Char [a]
  | two {a b : UInt8} : 0xC2 ≤ a → a ≤ 0xDF → Trails b → Utf8Char [a, b]
  | three {a b c : UInt8} : 0xE0 ≤ a → a ≤ 0xEF → Trails b → Trails c → (a = 0xE0 → 0xA0 ≤ b) →
      (a = 0xED → b ≤ 0x9F) → Utf8Char [a, b, c]
  | four {a b c d : UInt8} : 0xF0 ≤ a → a ≤ 0xF4 → Trails b → Trails c → Trails d → (a = 0xF0 → 0x90 ≤ b) →
      (a = 0xF4 → b ≤ 0x8F) → Utf8Char [a, b, c, d]

inductive Utf8 : List UInt8 → Prop
  | nil : Utf8 []
  | cons {first rest : List UInt8} : Utf8Char first → Utf8 rest → Utf8 (first ++ rest)

theorem utf8Char_utf8EncodeChar (c : Char) : Utf8Char (String.utf8EncodeChar c) := by
  have valid : c.val.toNat < 0xD800 ∨ 0xDFFF < c.val.toNat ∧ c.val.toNat < 0x110000 := c.valid
  fun_cases String.utf8EncodeChar c
  · apply Utf8Char.one
    simp [UInt8.le_iff_toNat_le]
    omega
  · apply Utf8Char.two <;> simp [Trails, UInt8.le_iff_toNat_le] <;> omega
  · apply Utf8Char.three <;> simp [Trails, UInt8.le_iff_toNat_le, ← UInt8.toNat_inj] <;> omega
  · apply Utf8Char.four <;> simp [Trails, UInt8.le_iff_toNat_le, ← UInt8.toNat_inj] <;> omega

theorem exists_val_eq {n : Nat} (h : n.isValidChar) : ∃ c : Char, c.val.toNat = n := ⟨Char.ofNatAux n h, rfl⟩

theorem exists_char_of_utf8Char {bytes : List UInt8} (h : Utf8Char bytes) :
    ∃ c, String.utf8EncodeChar c = bytes := by
  cases h with
  | @one a low =>
    simp [UInt8.le_iff_toNat_le] at low
    obtain ⟨char, val⟩ := exists_val_eq (n := a.toNat) (.inl (by omega))
    refine ⟨char, ?_⟩
    simp [String.utf8EncodeChar, val]
    omega
  | @two a b low high tb =>
    simp [Trails, UInt8.le_iff_toNat_le] at low high tb
    obtain ⟨char, val⟩ := exists_val_eq (n := (a.toNat - 0xC0) * 64 + (b.toNat - 0x80)) (.inl (by omega))
    refine ⟨char, ?_⟩
    simp only [String.utf8EncodeChar, val]
    rw [if_neg (by omega), if_pos (by omega)]
    simp [← UInt8.toNat_inj]
    omega
  | @three a b c low high tb tc long surrogate =>
    simp [Trails, UInt8.le_iff_toNat_le, ← UInt8.toNat_inj] at low high tb tc long surrogate
    obtain ⟨char, val⟩ := exists_val_eq
      (n := (a.toNat - 0xE0) * 4096 + (b.toNat - 0x80) * 64 + (c.toNat - 0x80))
      (by simp only [Nat.isValidChar]; omega)
    refine ⟨char, ?_⟩
    simp only [String.utf8EncodeChar, val]
    rw [if_neg (by omega), if_neg (by omega), if_pos (by omega)]
    simp [← UInt8.toNat_inj]
    omega
  | @four a b c d low high tb tc td long last =>
    simp [Trails, UInt8.le_iff_toNat_le, ← UInt8.toNat_inj] at low high tb tc td long last
    obtain ⟨char, val⟩ := exists_val_eq
      (n := (a.toNat - 0xF0) * 262144 + (b.toNat - 0x80) * 4096 + (c.toNat - 0x80) * 64 + (d.toNat - 0x80))
      (.inr (by omega))
    refine ⟨char, ?_⟩
    simp only [String.utf8EncodeChar, val]
    rw [if_neg (by omega), if_neg (by omega), if_neg (by omega)]
    simp [← UInt8.toNat_inj]
    omega

/-- Bytes are UTF-8 exactly if they are the bytes of a text. -/
theorem utf8_iff {bs : List UInt8} : Utf8 bs ↔ ∃ s, bytes s = bs := by
  constructor
  · intro h
    induction h with
    | nil => exact ⟨"", rfl⟩
    | cons first _ ih =>
      obtain ⟨c, rfl⟩ := exists_char_of_utf8Char first
      obtain ⟨s, rfl⟩ := ih
      exact ⟨String.ofList (c :: s.toList), by simp only [toList_bytes, String.toList_ofList, List.flatMap_cons]⟩
  · rintro ⟨s, rfl⟩
    rw [toList_bytes]
    induction s.toList with
    | nil => exact .nil
    | cons c cs ih => exact .cons (utf8Char_utf8EncodeChar c) ih

theorem utf8EncodeChar_append_lt {c d : Char} (h : c < d) (as bs : List UInt8) :
    String.utf8EncodeChar c ++ as < String.utf8EncodeChar d ++ bs := by
  have less : c.val.toNat < d.val.toNat := h
  have valid : d.val.toNat < 0xD800 ∨ 0xDFFF < d.val.toNat ∧ d.val.toNat < 0x110000 := d.valid
  have digits (n : Nat) : n = n / 262144 * 262144 + n / 4096 % 64 * 4096 + n / 64 % 64 * 64 + n % 64 := by omega
  have cdigits := digits c.val.toNat
  have ddigits := digits d.val.toNat
  fun_cases String.utf8EncodeChar c <;> fun_cases String.utf8EncodeChar d <;>
    simp (disch := omega) [List.cons_lt_cons_iff, UInt8.lt_iff_toNat_lt, ← UInt8.toNat_inj, Nat.mod_eq_of_lt] <;> omega

theorem flatMap_utf8EncodeChar_lt {cs ds : List Char} (h : cs < ds) :
    cs.flatMap String.utf8EncodeChar < ds.flatMap String.utf8EncodeChar := by
  induction h with
  | @nil d ds =>
    rw [List.flatMap_nil, List.flatMap_cons]
    cases encoded : String.utf8EncodeChar d with
    | nil => exact absurd encoded String.utf8EncodeChar_ne_nil
    | cons => exact List.Lex.nil
  | cons _ ih => exact List.append_left_lt ih
  | rel less => exact utf8EncodeChar_append_lt less _ _

/-- A lower text has the lower bytes. -/
theorem bytes_lt_bytes {s t : String} (h : s < t) : bytes s < bytes t := by
  rw [toList_bytes, toList_bytes]
  exact flatMap_utf8EncodeChar_lt h

end DiscCatalog.Text
