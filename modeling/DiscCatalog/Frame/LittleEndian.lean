namespace DiscCatalog.LittleEndian

def encode : (width : Nat) → Nat → List UInt8
  | 0, _ => []
  | width + 1, n => UInt8.ofNat (n % 256) :: encode width (n / 256)

def decode : List UInt8 → Nat
  | [] => 0
  | b :: bs => b.toNat + 256 * decode bs

theorem length_encode (width n : Nat) : (encode width n).length = width := by
  induction width generalizing n with
  | zero => rfl
  | succ width ih => simp [encode, ih]

theorem decode_encode (width n : Nat) : decode (encode width n) = n % Nat.pow 256 width := by
  change decode (encode width n) = n % 256 ^ width
  induction width generalizing n with
  | zero => simp [encode, decode, Nat.mod_one]
  | succ width ih =>
    have low : (UInt8.ofNat (n % 256)).toNat = n % 256 := by simp
    rw [encode, decode, ih, low, Nat.pow_succ, Nat.mul_comm (256 ^ width), Nat.mod_mul]

theorem decode_lt (bs : List UInt8) : decode bs < Nat.pow 256 bs.length := by
  change decode bs < 256 ^ bs.length
  induction bs with
  | nil => simp [decode]
  | cons b bs ih =>
    have hb : b.toNat < 256 := b.toNat_lt
    rw [decode, List.length_cons, Nat.pow_succ]
    omega

theorem encode_decode (bs : List UInt8) : encode bs.length (decode bs) = bs := by
  induction bs with
  | nil => rfl
  | cons b bs ih =>
    have hb : b.toNat < 256 := b.toNat_lt
    have quotient : (b.toNat + 256 * decode bs) / 256 = decode bs := by omega
    have remainder : (b.toNat + 256 * decode bs) % 256 = b.toNat := by omega
    simp only [List.length_cons, decode, encode, quotient, remainder, ih]
    simp

def ofUInt32 (n : UInt32) : List UInt8 := encode 4 n.toNat

def toUInt32 (bs : List UInt8) : UInt32 := UInt32.ofNat (decode bs)

def ofInt32 (n : Int32) : List UInt8 := ofUInt32 n.toUInt32

def toInt32 (bs : List UInt8) : Int32 := (toUInt32 bs).toInt32

theorem toUInt32_ofUInt32 (n : UInt32) : toUInt32 (ofUInt32 n) = n := by
  unfold toUInt32 ofUInt32
  rw [decode_encode]
  have h : n.toNat < Nat.pow 256 4 := n.toNat_lt
  rw [Nat.mod_eq_of_lt h]
  simp

theorem toInt32_ofInt32 (n : Int32) : toInt32 (ofInt32 n) = n := by
  unfold toInt32 ofInt32
  rw [toUInt32_ofUInt32]
  simp

end DiscCatalog.LittleEndian
