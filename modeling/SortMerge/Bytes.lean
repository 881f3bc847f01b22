set_option autoImplicit false

/-! # Bytes as numbers and as digits

Two ways in which bytes are read and written: several bytes stand for a natural number, and one byte
stands as two hexadecimal digits in a text. -/

/-! ## Little-endian words

A natural number as a fixed number of bytes, least significant first, and back. Writing drops what
does not fit the width, so reading a written number gives it modulo the capacity of the width
(`decode_encode`), and equal widths make the writing injective on numbers that fit. -/

namespace SortMerge.LittleEndian

/-- The `width` bytes of `n`, least significant first. -/
def encode : Nat → Nat → List UInt8
  | 0, _ => []
  | width + 1, n => UInt8.ofNat (n % 256) :: encode width (n / 256)

/-- The number with the given bytes, least significant first. -/
def decode : List UInt8 → Nat
  | [] => 0
  | b :: bs => b.toNat + 256 * decode bs

/-- How many numbers fit so many bytes. -/
def capacity : Nat → Nat
  | 0 => 1
  | width + 1 => 256 * capacity width

@[simp] theorem length_encode (width n : Nat) : (encode width n).length = width := by
  induction width generalizing n with
  | zero => rfl
  | succ width ih => simp [encode, ih]

theorem decode_encode (width n : Nat) : decode (encode width n) = n % capacity width := by
  induction width generalizing n with
  | zero => simp [encode, decode, capacity, Nat.mod_one]
  | succ width ih =>
      have hbyte : (UInt8.ofNat (n % 256)).toNat = n % 256 := by
        simp [UInt8.toNat_ofNat']
      rw [encode, decode, ih, hbyte, capacity, Nat.mod_mul]

theorem decode_encode_of_lt {width n : Nat} (h : n < capacity width) :
    decode (encode width n) = n := by
  rw [decode_encode, Nat.mod_eq_of_lt h]

theorem encode_inj {width a b : Nat} (ha : a < capacity width) (hb : b < capacity width)
    (h : encode width a = encode width b) : a = b := by
  rw [← decode_encode_of_lt ha, ← decode_encode_of_lt hb, h]

theorem decode_lt (bs : List UInt8) : decode bs < capacity bs.length := by
  induction bs with
  | nil => simp [decode, capacity]
  | cons b bs ih =>
      have hb : b.toNat < 256 := b.toNat_lt
      rw [decode, List.length_cons, capacity]
      omega

end SortMerge.LittleEndian

/-! ## Hexadecimal digits

Bytes as pairs of hexadecimal digits. Writing uses lower case; reading takes either case and refuses
everything else, a sign or an odd digit included. -/

namespace SortMerge.Text.Hex

/-- The value of a hexadecimal digit of either case. -/
def digitValue? (c : Char) : Option Nat :=
  if '0' ≤ c ∧ c ≤ '9' then some (c.toNat - '0'.toNat)
  else if 'a' ≤ c ∧ c ≤ 'f' then some (c.toNat - 'a'.toNat + 10)
  else if 'A' ≤ c ∧ c ≤ 'F' then some (c.toNat - 'A'.toNat + 10)
  else none

/-- The two digits of a byte, the high half first. -/
def byteChars (b : UInt8) : List Char :=
  [Nat.digitChar (b.toNat / 16), Nat.digitChar (b.toNat % 16)]

/-- The lower-case digits of the bytes. -/
def encode (bs : List UInt8) : List Char :=
  bs.flatMap byteChars

def decode : List Char → Option (List UInt8)
  | [] => some []
  | [_] => none
  | h :: l :: rest =>
    match digitValue? h, digitValue? l, decode rest with
    | some h, some l, some bs => some (UInt8.ofNat (16 * h + l) :: bs)
    | _, _, _ => none

/-- The value of a list of digits, none if some character is no digit. -/
def natOfDigits? (cs : List Char) : Option Nat :=
  cs.foldlM (fun n c => (digitValue? c).map fun d => 16 * n + d) 0

/-- The digits of a number without leading zeros. -/
def ofNat (n : Nat) : List Char := Nat.toDigits 16 n

@[simp] theorem length_encode (bs : List UInt8) : (encode bs).length = 2 * bs.length := by
  induction bs with
  | nil => rfl
  | cons b bs ih =>
      rw [encode, List.flatMap_cons, List.length_append, ← encode, ih]
      simp only [byteChars, List.length_cons, List.length_nil]
      omega

end SortMerge.Text.Hex
