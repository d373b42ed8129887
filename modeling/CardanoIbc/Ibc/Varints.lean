-- Numbers in base 128 as lib/ibc/utils/bytes.ak reads them, at a position of a byte string, and that
-- they are the ones it writes. The proofs of ICS-23 read what is left of a string instead; the two
-- readers are the same.
import CardanoIbc.Ibc.Iavl
import CardanoIbc.Tendermint.Encodings

namespace cardano_ibc

/-- `builtin.index_bytearray`: the script stops outside the string. -/
def index_bytearray (bz : Bytes) (index : Int) : Option Int :=
  if index < 0 then none else bz[index.toNat]?.map fun b => (b.toNat : Int)

theorem index_bytearray_lt {bz : Bytes} {index cur_bz : Int}
    (h : index_bytearray bz index = some cur_bz) : 0 ≤ index ∧ index < bz.length := by
  unfold index_bytearray at h
  split at h
  · cases h
  · obtain ⟨b, hb, -⟩ := Option.map_eq_some_iff.mp h
    obtain ⟨hlt, -⟩ := List.getElem?_eq_some_iff.mp hb
    omega

namespace bytes

def inner_read_uvarint (bz : Bytes) (index : Int) : Option (Int × Int) :=
  match h : index_bytearray bz index with
  | none => none
  | some cur_bz =>
    let last_7_bits := cur_bz % 128
    if ¬ cur_bz ≥ 128 then some (last_7_bits, index + 1)
    else do
      let res ← inner_read_uvarint bz (index + 1)
      return (last_7_bits + 128 * res.1, res.2)
termination_by (bz.length - index).toNat
decreasing_by
  have := index_bytearray_lt h
  omega

def read_uvarint (bz : Bytes) (pos : Int) : Option (Int × Int) := inner_read_uvarint bz pos

/-- Reading at a position is reading off the front of what is left there. -/
theorem read_uvarint_at (start rest : Bytes) :
    read_uvarint (start ++ rest) start.length = (cardano_ibc.read_uvarint rest).map fun r =>
      ((r.1 : Int), ((start ++ rest).length : Int) - r.2.length) := by
  unfold read_uvarint
  induction rest generalizing start with
  | nil =>
    have hout : index_bytearray (start ++ []) start.length = none := by
      simp [index_bytearray]
    rw [inner_read_uvarint]
    split
    · rfl
    · rename_i hsome
      rw [hout] at hsome
      cases hsome
  | cons b rest ih =>
    have hbyte : index_bytearray (start ++ b :: rest) start.length = some (b.toNat : Int) := by
      simp [index_bytearray]
    have hnext := ih (start ++ [b])
    rw [List.append_assoc, List.singleton_append, List.length_append, List.length_singleton,
      Nat.cast_add, Nat.cast_one] at hnext
    rw [inner_read_uvarint]
    split
    · rename_i hnone
      rw [hbyte] at hnone
      cases hnone
    · rename_i cur_bz hsome
      obtain rfl := Option.some.inj (hbyte.symm.trans hsome)
      rw [cardano_ibc.read_uvarint, hnext]
      by_cases hlast : b.toNat < 128
      · rw [if_pos (by omega), if_pos hlast, Option.map_some, List.length_append, List.length_cons]
        simp only [Option.some.injEq, Prod.mk.injEq]
        omega
      · rw [if_neg (by omega), if_neg hlast]
        cases cardano_ibc.read_uvarint rest with
        | none => rfl
        | some r => simp

/-- No number is written in fewer bytes than its shortest form has. -/
theorem length_encode_le {bz rest : Bytes} {n : Nat}
    (h : cardano_ibc.read_uvarint bz = some (n, rest)) :
    (varint.encode n).length + rest.length ≤ bz.length := by
  induction bz generalizing n with
  | nil => cases h
  | cons b bz ih =>
    rw [cardano_ibc.read_uvarint] at h
    split at h
    · rename_i hlast
      cases h
      rw [varint.encode_small hlast, List.length_cons, List.length_cons, List.length_nil]
      omega
    · simp only [bind_eq_some, pure_eq_some, Prod.exists, Prod.mk.injEq] at h
      obtain ⟨more, rest', hread, rfl, rfl⟩ := h
      have hmore := ih hread
      rw [List.length_cons]
      by_cases hsmall : b.toNat % 128 + 128 * more < 128
      · have hpos : 0 < (varint.encode more).length := by
          rw [varint.encode]
          split <;> simp
        rw [varint.encode_small hsmall, List.length_singleton]
        omega
      · have hdiv : (b.toNat % 128 + 128 * more) / 128 = more := by omega
        rw [varint.encode_large (by omega), hdiv, List.length_cons]
        omega

/-- What is written is read back at any place as the number and the place after it, takes as many
bytes as was computed, and nothing shorter is read as the number; a length is written as any other
number. -/
theorem varint_round_trip {v : Int} (hlow : 0 ≤ v) (hhigh : v < 2 ^ 64) :
    ∃ out, encode_varint v = some out ∧ (out.length : Int) = sov v ∧
      (∀ p s : Bytes, read_uvarint (p ++ out ++ s) p.length = some (v, p.length + sov v)) ∧
      (∀ w pos, read_uvarint w 0 = some (v, pos) → (out.length : Int) ≤ pos) ∧
      (v < 16384 → encode_length_varint v = encode_varint v) := by
  lift v to Nat using hlow with n
  have hn : n < 2 ^ 64 := by omega
  have hsov := sov_eq_length hn
  have hwritten := encode_varint_eq n (by omega)
  refine ⟨varint.encode n, hwritten, hsov.symm, ?_, ?_, ?_⟩
  · intro p s
    rw [List.append_assoc, read_uvarint_at, read_uvarint_encode, Option.map_some, hsov,
      List.length_append, List.length_append, Option.some.injEq, Prod.mk.injEq]
    refine ⟨rfl, ?_⟩
    simp only
    omega
  · intro w pos hread
    have heq := read_uvarint_at [] w
    rw [List.nil_append, List.length_nil, Nat.cast_zero, hread, eq_comm,
      Option.map_eq_some_iff] at heq
    obtain ⟨⟨m, rest⟩, hm, hpair⟩ := heq
    obtain ⟨hvalue, hpos⟩ := Prod.mk.inj hpair
    obtain rfl : m = n := Nat.cast_inj.mp hvalue
    have hle := length_encode_le hm
    simp only at hpos
    omega
  · intro hlength
    rw [hwritten, (encode_length_varint_eq (by omega)).1]

/-- The number 300. -/
theorem three_hundred_is_read_back :
    encode_varint 300 = some [172, 2] ∧
    ∃ out, encode_varint 300 = some out ∧ (out.length : Int) = sov 300 ∧
      (∀ p s : Bytes, read_uvarint (p ++ out ++ s) p.length = some (300, p.length + sov 300)) ∧
      (∀ w pos, read_uvarint w 0 = some (300, pos) → (out.length : Int) ≤ pos) ∧
      ((300 : Int) < 16384 → encode_length_varint 300 = encode_varint 300) :=
  ⟨by decide, varint_round_trip (by decide) (by decide)⟩

end bytes

end cardano_ibc
