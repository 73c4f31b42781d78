namespace DiscCatalog.Text

def bytes (s : String) : List UInt8 := s.toByteArray.data.toList

def ofBytes? (bs : List UInt8) : Option String := String.fromUTF8? ⟨bs.toArray⟩

theorem length_bytes (s : String) : (bytes s).length = s.utf8ByteSize := rfl

theorem ofBytes?_eq_some_iff {bs : List UInt8} {s : String} : ofBytes? bs = some s ↔ bytes s = bs := by
  unfold ofBytes? String.fromUTF8?
  constructor
  · intro h
    split at h
    · cases h; rfl
    · cases h
  · intro h
    subst h
    have same : (⟨(bytes s).toArray⟩ : ByteArray) = s.toByteArray := rfl
    rw [same, dif_pos s.isValidUTF8]
    rfl

theorem ofBytes?_bytes (s : String) : ofBytes? (bytes s) = some s := ofBytes?_eq_some_iff.2 rfl

/-- Where bytes stop being UTF-8: the index at which the text ends, and the number of bytes that
cannot belong to any character, or `none` when the bytes end inside a character. -/
structure Utf8Fault where
  index : Nat
  length : Option Nat
deriving DecidableEq, Repr

def Utf8Fault.message (f : Utf8Fault) : String :=
  match f.length with
  | none => s!"incomplete utf-8 byte sequence from index {f.index}"
  | some n => s!"invalid utf-8 sequence of {n} bytes from index {f.index}"

def follow (first : UInt8) : Option (UInt8 × UInt8 × Nat) :=
  if first < 0xC2 then none
  else if first < 0xE0 then some (0x80, 0xBF, 0)
  else if first = 0xE0 then some (0xA0, 0xBF, 1)
  else if first = 0xED then some (0x80, 0x9F, 1)
  else if first < 0xF0 then some (0x80, 0xBF, 1)
  else if first = 0xF0 then some (0x90, 0xBF, 2)
  else if first < 0xF4 then some (0x80, 0xBF, 2)
  else if first = 0xF4 then some (0x80, 0x8F, 2)
  else none

/-- What a character lacks after `seen` of its bytes, when `more` bytes of 80 to BF must follow. -/
def tailFault (index seen : Nat) : Nat → List UInt8 → Option Utf8Fault
  | 0, _ => none
  | _ + 1, [] => some ⟨index, none⟩
  | more + 1, b :: rest =>
    if 0x80 ≤ b ∧ b ≤ 0xBF then tailFault index (seen + 1) more rest else some ⟨index, some seen⟩

def firstChar (index : Nat) : List UInt8 → Except Utf8Fault Nat
  | [] => .ok 0
  | a :: rest =>
    if a < 0x80 then .ok 1
    else match follow a, rest with
      | none, _ => .error ⟨index, some 1⟩
      | some _, [] => .error ⟨index, none⟩
      | some (low, high, more), b :: rest =>
        if low ≤ b ∧ b ≤ high then
          match tailFault index 2 more rest with
          | some fault => .error fault
          | none => .ok (2 + more)
        else .error ⟨index, some 1⟩

def faultFrom : Nat → Nat → List UInt8 → Option Utf8Fault
  | 0, _, _ => none
  | room + 1, index, bs =>
    match firstChar index bs with
    | .error fault => some fault
    | .ok n => faultFrom room (index + n) (bs.drop n)

def firstFault (bs : List UInt8) : Option Utf8Fault := faultFrom bs.length 0 bs

def decode (bs : List UInt8) : Except Utf8Fault String :=
  match ofBytes? bs with
  | some s => .ok s
  | none => .error ((firstFault bs).getD ⟨bs.length, none⟩)

theorem decode_eq_ok_iff {bs : List UInt8} {s : String} : decode bs = .ok s ↔ bytes s = bs := by
  rw [← ofBytes?_eq_some_iff]
  unfold decode
  cases ofBytes? bs <;> simp

def clipChars : Nat → List Char → List Char
  | _, [] => []
  | room, c :: cs => if c.utf8Size ≤ room then c :: clipChars (room - c.utf8Size) cs else []

/-- The longest prefix of a text that takes at most `room` bytes and cuts no character. -/
def clip (room : Nat) (s : String) : String := String.ofList (clipChars room s.toList)

def hasInfix (part : List Char) : List Char → Bool
  | [] => part.isEmpty
  | c :: cs => part.isPrefixOf (c :: cs) || hasInfix part cs

def contains (s part : String) : Bool := hasInfix part.toList s.toList

def hexByte (b : UInt8) : String :=
  String.ofList ((if b < 16 then ['0'] else []) ++ Nat.toDigits 16 b.toNat)

def digit? (base : Nat) (c : Char) : Option Nat :=
  let n :=
    if '0' ≤ c ∧ c ≤ '9' then c.toNat - '0'.toNat
    else if 'a' ≤ c ∧ c ≤ 'f' then c.toNat - 'a'.toNat + 10
    else if 'A' ≤ c ∧ c ≤ 'F' then c.toNat - 'A'.toNat + 10
    else base
  if n < base then some n else none

def number (base : Nat) (digits : List Char) : Nat :=
  digits.foldl (fun n c => n * base + (digit? base c).getD 0) 0

def ofHex? : List Char → Option (List UInt8)
  | [] => some []
  | [_] => none
  | a :: b :: rest => do
    let high ← digit? 16 a
    let low ← digit? 16 b
    let bytes ← ofHex? rest
    return UInt8.ofNat (16 * high + low) :: bytes

def hexNumber (n : Nat) : String := String.ofList (Nat.toDigits 16 n)

end DiscCatalog.Text
