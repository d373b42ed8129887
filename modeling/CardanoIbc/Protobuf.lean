-- The protobuf encoders of lib/ibc/utils/bytes.ak and int.ak. Each gives the size the
-- source computes beside the bytes.
import CardanoIbc.Library.Varint
import CardanoIbc.Prelude

namespace cardano_ibc

def max_uint64 : Int := 18446744073709551616

def uint64 (x : Int) : Int := x % max_uint64

theorem uint64_nonneg (x : Int) : 0 ≤ uint64 x := Int.emod_nonneg x (by decide)

theorem uint64_lt (x : Int) : uint64 x < 18446744073709551616 := Int.emod_lt_of_pos x (by decide)

/-! ## Field keys -/

def field_1_varint : Int := 0x8
def field_1_length_delimited : Int := 0xa
def field_2_varint : Int := 0x10
def field_2_fixed64 : Int := 0x11
def field_2_length_delimited : Int := 0x12
def field_3_fixed64 : Int := 0x19
def field_4_length_delimited : Int := 0x22
def field_5_length_delimited : Int := 0x2a
def field_6_length_delimited : Int := 0x32

/-! ## Varints -/

def continuation_byte (v : Int) : Int := v % 128 + 128

/-- The encoders of one to ten bytes: `encodeVarintOf n` writes `n + 1` of them. -/
def encodeVarintOf : Nat → Int → Option Bytes
  | 0, v => push [] v
  | n + 1, v => do push (← encodeVarintOf n (v / 128)) (continuation_byte v)

def encode_varint_1 : Int → Option Bytes := encodeVarintOf 0
def encode_varint_2 : Int → Option Bytes := encodeVarintOf 1
def encode_varint_3 : Int → Option Bytes := encodeVarintOf 2
def encode_varint_4 : Int → Option Bytes := encodeVarintOf 3
def encode_varint_5 : Int → Option Bytes := encodeVarintOf 4
def encode_varint_6 : Int → Option Bytes := encodeVarintOf 5
def encode_varint_7 : Int → Option Bytes := encodeVarintOf 6
def encode_varint_8 : Int → Option Bytes := encodeVarintOf 7
def encode_varint_9 : Int → Option Bytes := encodeVarintOf 8
def encode_varint_10 : Int → Option Bytes := encodeVarintOf 9

def encode_varint (v : Int) : Option Bytes :=
  if v < 128 then encode_varint_1 v
  else if v < 16384 then encode_varint_2 v
  else if v < 2097152 then encode_varint_3 v
  else if v < 268435456 then encode_varint_4 v
  else if v < 34359738368 then encode_varint_5 v
  else if v < 4398046511104 then encode_varint_6 v
  else if v < 562949953421312 then encode_varint_7 v
  else if v < 72057594037927936 then encode_varint_8 v
  else if v < 9223372036854775808 then encode_varint_9 v
  else encode_varint_10 v

def encode_length_varint (v : Int) : Option Bytes :=
  -- the second form is for every other number: past 16383 it is no longer a varint
  if v < 128 then encode_varint_1 v else encode_varint_2 v

def sov (x : Int) : Int :=
  if x < 0 then 10
  else if x < 128 then 1
  else if x < 16384 then 2
  else if x < 2097152 then 3
  else if x < 268435456 then 4
  else if x < 34359738368 then 5
  else if x < 4398046511104 then 6
  else if x < 562949953421312 then 7
  else if x < 72057594037927936 then 8
  else if x < 9223372036854775808 then 9
  else 10

def sov_length (x : Int) : Int := if x < 128 then 1 else 2

theorem encodeVarintOf_succ (n : Nat) (v : Nat) (out : Bytes)
    (ih : encodeVarintOf n ((v / 128 : Nat) : Int) = some out) :
    encodeVarintOf (n + 1) v = some ((v % 128 + 128).toUInt8 :: out) := by
  have hbyte : continuation_byte v = ((v % 128 + 128 : Nat) : Int) := by
    simp [continuation_byte]
  have hdiv : (v : Int) / 128 = ((v / 128 : Nat) : Int) := by simp
  rw [encodeVarintOf, hdiv, ih, hbyte]
  simp only [Option.bind_eq_bind, Option.bind_some, push_eq_some, Int.toNat_natCast, and_true]
  omega

/-- Written with as many bytes as it needs, a number is in its shortest form. -/
theorem encodeVarintOf_eq (n : Nat) (v : Nat) (low : n = 0 ∨ 128 ^ n ≤ v)
    (high : v < 128 ^ (n + 1)) : encodeVarintOf n v = some (varint.encode v) := by
  induction n generalizing v with
  | zero =>
    simp only [Nat.zero_add, Nat.pow_one] at high
    rw [varint.encode_small high]
    simp only [encodeVarintOf, push_eq_some, Int.toNat_natCast, and_true]
    omega
  | succ n ih =>
    have hlow : 128 ^ n * 128 ≤ v := by
      rcases low with h | h
      · cases h
      · rwa [Nat.pow_succ] at h
    have hpos : 0 < 128 ^ n := Nat.pow_pos (by decide)
    have hv : 128 ≤ v := by omega
    rw [varint.encode_large hv]
    refine encodeVarintOf_succ n v _ (ih (v / 128) (.inr ?_) ?_)
    · exact (Nat.le_div_iff_mul_le (by decide)).mpr hlow
    · rw [Nat.pow_succ] at high
      exact Nat.div_lt_of_lt_mul (by rwa [Nat.mul_comm])

theorem encode_varint_eq (v : Nat) (h : v < 2 ^ 70) :
    encode_varint v = some (varint.encode v) := by
  unfold encode_varint
  split_ifs <;> exact encodeVarintOf_eq _ v (by omega) (by omega)

/-- Every number up to 64 bits is written, as it is modulo 2^64. -/
theorem encode_varint_uint64 (x : Int) :
    encode_varint (uint64 x) = some (varint.encode (uint64 x).toNat) := by
  have hnn := uint64_nonneg x
  have hlt := uint64_lt x
  have h := encode_varint_eq (uint64 x).toNat (by omega)
  rwa [Int.toNat_of_nonneg hnn] at h

/-- The two forms of a length. -/
theorem encode_length_varint_eq_some {v : Int} {out : Bytes}
    (h : encode_length_varint v = some out) :
    (0 ≤ v ∧ v < 128 ∧ out = [v.toNat.toUInt8]) ∨
    (128 ≤ v ∧ v < 32768 ∧ out = [(v.toNat % 128 + 128).toUInt8, (v.toNat / 128).toUInt8]) := by
  unfold encode_length_varint at h
  split at h
  · rename_i hlt
    simp only [encode_varint_1, encodeVarintOf, push_eq_some] at h
    exact .inl ⟨h.1, hlt, h.2.2⟩
  · rename_i hge
    simp only [encode_varint_2, encodeVarintOf, continuation_byte, bind_eq_some,
      push_eq_some] at h
    obtain ⟨inner, ⟨h1, h2, rfl⟩, h3, h4, rfl⟩ := h
    refine .inr ⟨by omega, by omega, ?_⟩
    congr 2
    · omega
    · congr 1
      omega

/-- A length is read back from the bytes whatever follows it. -/
theorem encode_length_varint_append_inj {a b : Int} {x y r s : Bytes}
    (ha : encode_length_varint a = some x) (hb : encode_length_varint b = some y)
    (h : x ++ r = y ++ s) : a = b ∧ r = s := by
  rcases encode_length_varint_eq_some ha with ⟨ha1, ha2, rfl⟩ | ⟨ha1, ha2, rfl⟩ <;>
    rcases encode_length_varint_eq_some hb with ⟨hb1, hb2, rfl⟩ | ⟨hb1, hb2, rfl⟩
  · simp only [List.cons_append, List.nil_append, List.cons.injEq] at h
    have := varint.toUInt8_inj (by omega) (by omega) h.1
    exact ⟨by omega, h.2⟩
  · have := varint.toUInt8_inj (by omega) (by omega) (List.cons.inj h).1
    omega
  · have := varint.toUInt8_inj (by omega) (by omega) (List.cons.inj h).1
    omega
  · simp only [List.cons_append, List.nil_append, List.cons.injEq] at h
    have hlow := varint.toUInt8_inj (by omega) (by omega) h.1
    have hhigh := varint.toUInt8_inj (by omega) (by omega) h.2.1
    exact ⟨by omega, h.2.2⟩

theorem length_encode_length_varint {v : Int} {out : Bytes}
    (h : encode_length_varint v = some out) : (out.length : Int) = sov_length v := by
  unfold sov_length
  rcases encode_length_varint_eq_some h with ⟨-, hlt, rfl⟩ | ⟨hge, -, rfl⟩
  · simp [hlt]
  · simp [show ¬ v < 128 by omega]

/-! ## Fields -/

def is_empty_or_size (h : Bytes) (size : Nat) : Bool := h.length == 0 || h.length == size

def size_and_concat (a b : Int × Bytes) : Int × Bytes :=
  if b.1 = 0 then (a.1, a.2 ++ b.2) else (a.1 + sov_length b.1 + b.1 + 1, a.2 ++ b.2)

def nest_record (a : Int × Bytes) (identifier : Int) : Option (Int × Bytes) := do
  let bz2 ← push ((← encode_length_varint a.1) ++ a.2) identifier
  return (sov_length a.1 + a.1 + 1, bz2)

def add_and_concat (a b : Int × Bytes) : Int × Bytes := (a.1 + b.1, a.2 ++ b.2)

def encode_int (int identifier : Int) : Option (Int × Bytes) :=
  if int = 0 then some (0, [])
  else do
    let hash ← push (← encode_varint (uint64 int)) identifier
    return (sov (uint64 int) + 1, hash)

def encode_int_little_endian (int identifier constant_lenght : Int) :
    Option (Int × Bytes) :=
  if int = 0 then some (0, [])
  else do
    let hash ← push (← from_int_little_endian int 8) identifier
    return (constant_lenght, hash)

def encode_bytearray (bz1 : Bytes) (identifier : Int) : Option (Int × Bytes) :=
  if bz1.length = 0 then some (0, [])
  else do
    let bz2 ← push ((← encode_length_varint bz1.length) ++ bz1) identifier
    return (bz1.length, bz2)

end cardano_ibc
