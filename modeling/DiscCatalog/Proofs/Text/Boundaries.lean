import DiscCatalog.Proofs.Text.Utf8

namespace DiscCatalog.Text

def isBoundary (bs : List UInt8) (i : Nat) : Bool :=
  i == 0 || match bs[i]? with
    | some b => b < 0x80 || 0xBF < b
    | none => i == bs.length

def stepBack (bs : List UInt8) : (i : Nat) → Option Nat
  | 0 => if isBoundary bs 0 then some 0 else none
  | i + 1 => if isBoundary bs (i + 1) then some (i + 1) else stepBack bs i

def upTo? (s : String) (n : Nat) : Option String :=
  if isBoundary (bytes s) n then ofBytes? ((bytes s).take n) else none

/-- A text that is too long is cut at the boundary nearest to `room` bytes. -/
def cutBack? (room : Nat) (s : String) : Option String :=
  if s.utf8ByteSize ≤ room then some s else stepBack (bytes s) room >>= upTo? s

/-- The longest text that `s` begins with and that takes at most `room` bytes. -/
structure LongestPart (room : Nat) (s part : String) : Prop where
  begins : part.toList <+: s.toList
  fits : part.utf8ByteSize ≤ room
  longest : ∀ other : String, other.toList <+: s.toList → other.utf8ByteSize ≤ room → other.toList <+: part.toList

theorem stepBack_eq_some_iff {bs : List UInt8} {i n : Nat} :
    stepBack bs i = some n ↔ n ≤ i ∧ isBoundary bs n ∧ ∀ k, n < k → k ≤ i → ¬ isBoundary bs k := by
  induction i with
  | zero =>
    have front : isBoundary bs 0 = true := rfl
    rw [stepBack, if_pos front, Option.some_inj]
    constructor
    · rintro rfl
      exact ⟨le_rfl, front, fun k above below => absurd below (by omega)⟩
    · rintro ⟨low, -, -⟩
      omega
  | succ i ih =>
    rw [stepBack]
    by_cases here : isBoundary bs (i + 1) = true
    · rw [if_pos here, Option.some_inj]
      constructor
      · rintro rfl
        exact ⟨le_rfl, here, fun k above below => absurd below (by omega)⟩
      · rintro ⟨low, -, none⟩
        by_contra other
        exact none (i + 1) (by omega) le_rfl here
    · rw [if_neg here, ih]
      constructor
      · rintro ⟨low, boundary, none⟩
        refine ⟨by omega, boundary, fun k above below => ?_⟩
        obtain rfl | earlier := Nat.eq_or_lt_of_le below
        · exact here
        · exact none k above (by omega)
      · rintro ⟨low, boundary, none⟩
        have earlier : n ≠ i + 1 := fun same => here (same ▸ boundary)
        exact ⟨by omega, boundary, fun k above below => none k above (by omega)⟩

theorem Utf8Char.exists_cons {block : List UInt8} (h : Utf8Char block) :
    ∃ a tail, block = a :: tail ∧ ¬ Trails a ∧ ∀ b ∈ tail, Trails b := by
  have leads (a : UInt8) (low : a ≤ 0x7F ∨ 0xC2 ≤ a) : ¬ Trails a := by
    simp only [Trails, UInt8.le_iff_toNat_le, UInt8.reduceToNat] at low ⊢
    omega
  cases h with
  | one low => exact ⟨_, [], rfl, leads _ (.inl low), by simp⟩
  | two low high tb => exact ⟨_, _, rfl, leads _ (.inr low), by simpa using tb⟩
  | three low high tb tc => exact ⟨_, _, rfl, leads _ (.inr (UInt8.le_trans (by decide) low)), by simp [tb, tc]⟩
  | four low high tb tc td =>
    exact ⟨_, _, rfl, leads _ (.inr (UInt8.le_trans (by decide) low)), by simp [tb, tc, td]⟩

theorem Utf8Char.trails_iff {block : List UInt8} (h : Utf8Char block) {i : Nat} {b : UInt8} (there : block[i]? = some b) :
    Trails b ↔ 0 < i := by
  obtain ⟨a, tail, rfl, lead, trail⟩ := h.exists_cons
  cases i with
  | zero =>
    cases there
    simpa using lead
  | succ i =>
    have inTail : b ∈ tail := List.mem_of_getElem? there
    simpa using trail b inTail

theorem isBoundary_of_pos {bs : List UInt8} {i : Nat} (h : 0 < i) :
    isBoundary bs i = true ↔ i = bs.length ∨ ∃ b, bs[i]? = some b ∧ ¬ Trails b := by
  have outside (b : UInt8) : ¬ Trails b ↔ b < 0x80 ∨ 0xBF < b := by
    rw [Trails, not_and_or, UInt8.not_le, UInt8.not_le]
  unfold isBoundary
  cases there : bs[i]? with
  | none => simp [h.ne']
  | some b =>
    have inside : i < bs.length := (List.getElem?_eq_some_iff.1 there).1
    simp [h.ne', outside, inside.ne]

theorem not_isBoundary_of_lt {bs : List UInt8} {i : Nat} (h : bs.length < i) : ¬ isBoundary bs i := by
  rw [isBoundary_of_pos (by omega), List.getElem?_eq_none h.le]
  rintro (same | ⟨b, there, -⟩)
  · omega
  · cases there

theorem isBoundary_append {bs rest : List UInt8} {k : Nat} (some_byte : 0 < bs.length)
    (leads : ∀ b, rest[0]? = some b → ¬ Trails b) : isBoundary (bs ++ rest) (bs.length + k) ↔ isBoundary rest k := by
  have byte : (bs ++ rest)[bs.length + k]? = rest[k]? := by
    rw [List.getElem?_append_right (by omega), Nat.add_sub_cancel_left]
  rw [isBoundary_of_pos (by omega), byte, List.length_append, Nat.add_left_cancel_iff]
  obtain rfl | positive := Nat.eq_zero_or_pos k
  · refine iff_of_true ?_ rfl
    cases rest with
    | nil => exact .inl rfl
    | cons b rest => exact .inr ⟨b, rfl, leads b rfl⟩
  · rw [isBoundary_of_pos positive]

theorem not_trails_of_head {cs : List Char} {b : UInt8} (there : (cs.flatMap String.utf8EncodeChar)[0]? = some b) :
    ¬ Trails b := by
  cases cs with
  | nil => cases there
  | cons c cs =>
    have some_byte : 0 < (String.utf8EncodeChar c).length := by
      rw [String.length_utf8EncodeChar]
      exact c.utf8Size_pos
    rw [List.flatMap_cons, List.getElem?_append_left some_byte] at there
    exact fun trails => absurd (((utf8Char_utf8EncodeChar c).trails_iff there).1 trails) (Nat.lt_irrefl 0)

/-- The boundaries of a text are where the texts that it begins with end. -/
theorem isBoundary_iff {cs : List Char} {n : Nat} :
    isBoundary (cs.flatMap String.utf8EncodeChar) n = true ↔ ∃ part, part <+: cs ∧ sizeOf part = n := by
  induction cs generalizing n with
  | nil =>
    cases n with
    | zero => exact iff_of_true rfl ⟨[], List.nil_prefix, rfl⟩
    | succ n =>
      refine iff_of_false (not_isBoundary_of_lt (Nat.succ_pos n)) ?_
      rintro ⟨part, begins, size⟩
      rw [List.prefix_nil.1 begins] at size
      cases size
  | cons c cs ih =>
    have first : (String.utf8EncodeChar c).length = c.utf8Size := String.length_utf8EncodeChar c
    have some_byte : 0 < c.utf8Size := c.utf8Size_pos
    rw [List.flatMap_cons]
    obtain rfl | positive := Nat.eq_zero_or_pos n
    · exact iff_of_true rfl ⟨[], List.nil_prefix, rfl⟩
    obtain within | behind := Nat.lt_or_ge n c.utf8Size
    · refine iff_of_false ?_ ?_
      · rw [isBoundary_of_pos positive, List.getElem?_append_left (by omega), List.length_append]
        rintro (same | ⟨b, there, leads⟩)
        · omega
        · exact leads (((utf8Char_utf8EncodeChar c).trails_iff there).2 positive)
      · rintro ⟨part, begins, rfl⟩
        obtain rfl | ⟨rest, rfl, -⟩ := List.prefix_cons_iff.1 begins
        · cases positive
        · rw [sizeOf] at within
          omega
    · obtain ⟨k, rfl⟩ := Nat.exists_eq_add_of_le behind
      rw [← first, isBoundary_append (by omega) fun b => not_trails_of_head, ih, first]
      constructor
      · rintro ⟨part, begins, rfl⟩
        exact ⟨c :: part, (List.prefix_cons_inj c).2 begins, rfl⟩
      · rintro ⟨part, begins, size⟩
        obtain rfl | ⟨rest, rfl, follows⟩ := List.prefix_cons_iff.1 begins
        · rw [sizeOf] at size
          omega
        · rw [sizeOf] at size
          exact ⟨rest, follows, by omega⟩

theorem clipChars_begins (room : Nat) (cs : List Char) : clipChars room cs <+: cs := by
  induction cs generalizing room with
  | nil => exact List.nil_prefix
  | cons c cs ih =>
    rw [clipChars]
    split
    · exact (List.prefix_cons_inj c).2 (ih _)
    · exact List.nil_prefix

theorem begins_clipChars {room : Nat} {cs part : List Char} (begins : part <+: cs) (fits : sizeOf part ≤ room) :
    part <+: clipChars room cs := by
  induction cs generalizing room part with
  | nil => exact begins
  | cons c cs ih =>
    obtain rfl | ⟨rest, rfl, follows⟩ := List.prefix_cons_iff.1 begins
    · exact List.nil_prefix
    · rw [sizeOf] at fits
      rw [clipChars, if_pos (by omega)]
      exact (List.prefix_cons_inj c).2 (ih follows (by omega))

theorem clip_longestPart (room : Nat) (s : String) : LongestPart room s (clip room s) := by
  have shown : (clip room s).toList = clipChars room s.toList := String.toList_ofList
  refine ⟨?_, ?_, fun other begins fits => ?_⟩
  · rw [shown]
    exact clipChars_begins room _
  · rw [clip, utf8ByteSize_ofList]
    exact sizeOf_clipChars_le room _
  · rw [shown]
    exact begins_clipChars begins (by rwa [sizeOf_toList])

theorem sizeOf_le_of_begins {part cs : List Char} (begins : part <+: cs) : sizeOf part ≤ sizeOf cs := by
  obtain ⟨rest, rfl⟩ := begins
  rw [← length_flatMap_utf8EncodeChar, ← length_flatMap_utf8EncodeChar, List.flatMap_append, List.length_append]
  exact Nat.le_add_right _ _

/-- Going back from the limit ends where the longest part within the limit ends. -/
theorem stepBack_eq (room : Nat) (s : String) : stepBack (bytes s) room = some (clip room s).utf8ByteSize := by
  obtain ⟨begins, fits, longest⟩ := clip_longestPart room s
  rw [toList_bytes, stepBack_eq_some_iff]
  refine ⟨fits, isBoundary_iff.2 ⟨_, begins, sizeOf_toList _⟩, fun k above below boundary => ?_⟩
  obtain ⟨part, other, rfl⟩ := isBoundary_iff.1 boundary
  have within := longest (String.ofList part) (by rwa [String.toList_ofList]) (by rwa [utf8ByteSize_ofList])
  have size := sizeOf_le_of_begins within
  rw [String.toList_ofList, sizeOf_toList] at size
  omega

theorem upTo?_of_begins {s part : String} (begins : part.toList <+: s.toList) :
    upTo? s part.utf8ByteSize = some part := by
  have boundary : isBoundary (bytes s) part.utf8ByteSize = true := by
    rw [toList_bytes]
    exact isBoundary_iff.2 ⟨_, begins, sizeOf_toList _⟩
  obtain ⟨rest, same⟩ := begins
  have before : (bytes s).take part.utf8ByteSize = bytes part := by
    rw [toList_bytes s, ← same, List.flatMap_append, ← toList_bytes]
    exact List.take_left' (length_bytes part)
  rw [upTo?, if_pos boundary, before, ofBytes?_bytes]

theorem cutBack?_eq (room : Nat) (s : String) : cutBack? room s = some (clip room s) := by
  unfold cutBack?
  split
  · next short => rw [clip_of_le short]
  · rw [stepBack_eq]
    exact upTo?_of_begins (clip_longestPart room s).begins

end DiscCatalog.Text
