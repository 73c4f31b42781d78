import DiscCatalog.Text

namespace DiscCatalog

theorem of_bind_eq_ok {ε α β : Type} {x : Except ε α} {f : α → Except ε β} {b : β} (h : x >>= f = .ok b) :
    ∃ a, x = .ok a ∧ f a = .ok b := by
  cases x with
  | error => cases h
  | ok a => exact ⟨a, rfl, h⟩

namespace Text

theorem toList_bytes (s : String) : bytes s = s.toList.flatMap String.utf8EncodeChar := by
  unfold bytes
  rw [← String.utf8Encode_toList, List.utf8Encode]
  simp

theorem zero_mem_utf8EncodeChar (c : Char) : (0 : UInt8) ∈ String.utf8EncodeChar c ↔ c = '\x00' := by
  constructor
  · intro h
    have low : c.val.toNat = 0 := by
      revert h
      fun_cases String.utf8EncodeChar c <;> intro h <;>
        simp [← UInt8.toNat_inj] at h <;> omega
    exact Char.ext (UInt32.toNat_inj.1 low)
  · rintro rfl
    decide

theorem zero_mem_bytes {s : String} : 0 ∈ bytes s ↔ '\x00' ∈ s.toList := by
  rw [toList_bytes, List.mem_flatMap]
  simp only [zero_mem_utf8EncodeChar, exists_eq_right]

def sizeOf : List Char → Nat
  | [] => 0
  | c :: cs => c.utf8Size + sizeOf cs

theorem length_flatMap_utf8EncodeChar (cs : List Char) : (cs.flatMap String.utf8EncodeChar).length = sizeOf cs := by
  induction cs with
  | nil => rfl
  | cons c cs ih => rw [List.flatMap_cons, List.length_append, String.length_utf8EncodeChar, ih, sizeOf]

theorem sizeOf_toList (s : String) : sizeOf s.toList = s.utf8ByteSize := by
  rw [← length_bytes, toList_bytes, length_flatMap_utf8EncodeChar]

theorem utf8ByteSize_ofList (cs : List Char) : (String.ofList cs).utf8ByteSize = sizeOf cs := by
  rw [← sizeOf_toList, String.toList_ofList]

theorem sizeOf_clipChars_le (room : Nat) (cs : List Char) : sizeOf (clipChars room cs) ≤ room := by
  induction cs generalizing room with
  | nil => exact Nat.zero_le _
  | cons c cs ih =>
    rw [clipChars]
    split
    · next fits =>
      have rest := ih (room - c.utf8Size)
      rw [sizeOf]
      omega
    · exact Nat.zero_le _

theorem clipChars_of_le {room : Nat} {cs : List Char} (h : sizeOf cs ≤ room) : clipChars room cs = cs := by
  induction cs generalizing room with
  | nil => rfl
  | cons c cs ih =>
    rw [sizeOf] at h
    rw [clipChars, if_pos (by omega), ih (by omega)]

theorem clip_of_le {room : Nat} {s : String} (h : s.utf8ByteSize ≤ room) : clip room s = s := by
  rw [clip, clipChars_of_le (by rwa [sizeOf_toList]), String.ofList_toList]

theorem isDigit_of_mem_repr {n : Nat} {c : Char} (h : c ∈ n.repr.toList) : c.isDigit := by
  rw [Nat.toList_repr] at h
  exact Nat.isDigit_of_mem_toDigits (by decide) (by decide) h

theorem sizeOf_of_one {cs : List Char} (one : ∀ c ∈ cs, c.utf8Size = 1) : sizeOf cs = cs.length := by
  induction cs with
  | nil => rfl
  | cons c cs ih =>
    obtain ⟨first, rest⟩ := List.forall_mem_cons.1 one
    rw [sizeOf, first, ih rest, List.length_cons, Nat.add_comm]

theorem utf8ByteSize_repr (n : Nat) : n.repr.utf8ByteSize = n.repr.length := by
  have one : ∀ c ∈ n.repr.toList, c.utf8Size = 1 := by
    intro c hc
    have digit := isDigit_of_mem_repr hc
    simp only [Char.isDigit, Bool.and_eq_true, decide_eq_true_eq] at digit
    exact Char.utf8Size_eq_one_iff.2 (UInt32.le_trans digit.2 (by decide))
  rw [← sizeOf_toList, sizeOf_of_one one, String.length_toList]

/-- A signed word takes eleven characters at most, the sign included. -/
theorem utf8ByteSize_toString_le (n : Int32) : (toString n).utf8ByteSize ≤ 11 := by
  have low := n.le_toInt
  have high := n.toInt_lt
  change (Int.repr n.toInt).utf8ByteSize ≤ 11
  cases hn : n.toInt with
  | ofNat k =>
    rw [hn, Int.ofNat_eq_natCast] at high
    have size : k.repr.length ≤ 10 := (Nat.length_repr_le_iff (by decide)).2 (by omega)
    change k.repr.utf8ByteSize ≤ 11
    rw [utf8ByteSize_repr]
    omega
  | negSucc k =>
    have size : (k + 1).repr.length ≤ 10 := (Nat.length_repr_le_iff (by decide)).2 (by omega)
    change ("-" ++ (k + 1).repr).utf8ByteSize ≤ 11
    rw [String.utf8ByteSize_append, utf8ByteSize_repr]
    change 1 + (k + 1).repr.length ≤ 11
    omega

theorem nul_notMem_toString (n : Int32) : '\x00' ∉ (toString n).toList := by
  have digits : ∀ k : Nat, '\x00' ∉ k.repr.toList := fun k h => by simpa using isDigit_of_mem_repr h
  change '\x00' ∉ (Int.repr n.toInt).toList
  cases n.toInt with
  | ofNat k => exact digits k
  | negSucc k =>
    change '\x00' ∉ ("-" ++ (k + 1).repr).toList
    rw [String.toList_append, List.mem_append]
    rintro (h | h)
    · simp at h
    · exact digits _ h

end Text

end DiscCatalog
