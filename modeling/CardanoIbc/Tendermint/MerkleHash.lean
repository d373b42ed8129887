-- The hash of a list of byte slices, as cometbft/crypto/merkle/tree.ak computes it: where a list is
-- cut comes from the number of bits of its length, and the two parts are slices with both ends inside.
-- It is the hash that RFC 6962 defines, and it fixes the list.
import CardanoIbc.Ibc.Ics23
import CardanoIbc.Library.TreeHash

namespace cardano_ibc

/-- `math.log` at base 2. -/
def math.log2 (self : Int) : Int :=
  if self = 2 then 1
  else if self < 2 then 0
  else 1 + math.log2 (self / 2)
termination_by self.toNat
decreasing_by omega

def math.pow2 (e : Int) : Int := if e < 0 then 0 else 2 ^ e.toNat

def bits.len64 (x : Int) : Int := math.log2 x + 1

def bits.len (x : Int) : Int := bits.len64 x

/-- The logarithm by halving is the one of Lean's library. -/
theorem math.log2_eq (n : Nat) : math.log2 n = Nat.log2 n := by
  induction n using Nat.strongRecOn with
  | ind n ih =>
    rw [math.log2, Nat.log2_def]
    by_cases htwo : n = 2
    · subst htwo
      decide
    · by_cases hsmall : n < 2
      · rw [if_neg (by omega), if_pos (by omega), if_neg (by omega)]
        rfl
      · have hhalf : (n : Int) / 2 = ((n / 2 : Nat) : Int) := by omega
        rw [if_neg (by omega), if_neg (by omega), if_pos (by omega), hhalf, ih (n / 2) (by omega)]
        omega

namespace tree

def get_split_point (length : Int) : Option Int := do
  expect (length ≥ 1)
  let bit_len := bits.len length
  let k := math.pow2 (bit_len - 1)
  return if k = length then k / 2 else k

theorem get_split_point_eq {n : Nat} (h : 1 ≤ n) :
    get_split_point n = some (cardano_ibc.get_split_point n : Int) := by
  have hpow : math.pow2 (bits.len n - 1) = ((2 ^ Nat.log2 n : Nat) : Int) := by
    rw [bits.len, bits.len64, math.log2_eq, Int.add_sub_cancel, math.pow2, if_neg (by omega),
      Int.toNat_natCast]
    norm_cast
  have hlength : decide ((n : Int) ≥ 1) = true := decide_eq_true (by omega)
  simp only [get_split_point, hlength, expect_true, hpow, Option.bind_eq_bind, Option.bind_some,
    cardano_ibc.get_split_point]
  by_cases hk : 2 ^ Nat.log2 n = n
  · rw [if_pos (by rw [hk]), if_pos hk]
    exact congrArg some (by norm_cast)
  · rw [if_neg (fun heq => hk (Nat.cast_inj.mp heq)), if_neg hk]
    rfl

/-- A list is cut at the largest power of two below its length. -/
theorem get_split_point_isSplit {n : Nat} (h : 2 ≤ n) :
    merkle_tree.IsSplit n (cardano_ibc.get_split_point n) := by
  have hlow : 2 ^ Nat.log2 n ≤ n := Nat.log2_self_le (by omega)
  have hhigh : n < 2 ^ (Nat.log2 n + 1) := Nat.lt_log2_self
  have hone : 1 ≤ Nat.log2 n := (Nat.le_log2 (by omega)).mpr (by omega)
  unfold cardano_ibc.get_split_point
  by_cases hk : 2 ^ Nat.log2 n = n
  · have hhalf : 2 ^ Nat.log2 n / 2 = 2 ^ (Nat.log2 n - 1) := by
      rw [← Nat.pow_sub_mul_pow 2 hone, Nat.pow_one, Nat.mul_div_cancel _ (by decide)]
    simp only [if_pos hk, hhalf]
    refine ⟨⟨_, rfl⟩, ?_, ?_⟩
    · omega
    · intro i hi
      have hlt : i < Nat.log2 n := (Nat.pow_lt_pow_iff_right (by decide)).mp (hk ▸ hi)
      exact Nat.pow_le_pow_right (by decide) (by omega)
  · simp only [if_neg hk]
    refine ⟨⟨_, rfl⟩, by omega, ?_⟩
    intro i hi
    have hlt : i < Nat.log2 n + 1 := (Nat.pow_lt_pow_iff_right (by decide)).mp (hi.trans hhigh)
    exact Nat.pow_le_pow_right (by decide) (by omega)

/-- The two slices are the list cut in two. -/
theorem slices {items : List Bytes} {k : Nat} (hpos : 0 < k) (hlt : k < items.length) :
    list.slice items 0 (k - 1) = items.take k ∧
      list.slice items k (items.length - 1) = items.drop k := by
  constructor
  · have hcount : ((k : Int) - 1 - 0 + 1).toNat = k := by omega
    have hnonneg : (k : Int) - 1 ≥ 0 := by omega
    simp only [list.slice, ge_iff_le, le_refl, if_true, if_pos hnonneg,
      hcount, Int.toNat_zero, List.drop_zero]
  · have hcount : ((items.length : Int) - 1 - k + 1).toNat = items.length - k := by omega
    have hk : (k : Int) ≥ 0 := by omega
    have hnonneg : (items.length : Int) - 1 ≥ 0 := by omega
    simp only [list.slice, if_pos hk, if_pos hnonneg, hcount, Int.toNat_natCast]
    rw [List.take_of_length_le (by rw [List.length_drop])]

/-- Where a list of two or more is cut, and its parts. -/
theorem parts {items : List Bytes} {k : Int} (h : 2 ≤ items.length)
    (hk : get_split_point items.length = some k) :
    ∃ n : Nat, k = n ∧ merkle_tree.IsSplit items.length n ∧
      list.slice items 0 (k - 1) = items.take n ∧
      list.slice items k (items.length - 1) = items.drop n := by
  have hsplit := get_split_point_isSplit h
  rw [get_split_point_eq (by omega)] at hk
  cases hk
  exact ⟨_, rfl, hsplit, slices hsplit.pos hsplit.2.1⟩

section Hashes

variable [Builtins]

def hash_from_byte_slices_sha2_256 (items : List Bytes) : Option Bytes :=
  if _hnone : items.length = 0 then some empty_hash
  else if _hone : items.length = 1 then
    some (leaf_hash_opt_sha2_256 ((list.«at» items 0).getD []))
  else
    match hk : get_split_point items.length with
    | none => none
    | some k => do
      let left ← hash_from_byte_slices_sha2_256 (list.slice items 0 (k - 1))
      let right ← hash_from_byte_slices_sha2_256 (list.slice items k (items.length - 1))
      return inner_hash_opt_sha2_256 left right
termination_by items.length
decreasing_by
  · obtain ⟨n, rfl, hsplit, hleft, -⟩ := parts (by omega) hk
    have := hsplit.2.1
    rw [hleft, List.length_take]
    omega
  · obtain ⟨n, rfl, hsplit, -, hright⟩ := parts (by omega) hk
    have := hsplit.pos
    rw [hright, List.length_drop]
    omega

/-- Every list is hashed, and as RFC 6962 says. -/
theorem hash_from_byte_slices_treeHash (items : List Bytes) :
    ∃ h, hash_from_byte_slices_sha2_256 items = some h ∧
      merkle_tree.TreeHash sha2_256 items h := by
  induction hn : items.length using Nat.strongRecOn generalizing items with
  | ind n ih =>
    subst hn
    rw [hash_from_byte_slices_sha2_256]
    by_cases hnone : items.length = 0
    · rw [dif_pos hnone, empty_hash, ← Builtins.sha2_256_empty]
      obtain rfl := List.length_eq_zero_iff.mp hnone
      exact ⟨_, rfl, .empty⟩
    · by_cases hone : items.length = 1
      · rw [dif_neg hnone, dif_pos hone]
        obtain ⟨leaf, rfl⟩ := List.length_eq_one_iff.mp hone
        exact ⟨_, rfl, .leaf leaf⟩
      · rw [dif_neg hnone, dif_neg hone]
        split
        · rename_i hk
          rw [get_split_point_eq (by omega)] at hk
          cases hk
        · rename_i k hk
          obtain ⟨n, rfl, hsplit, hleft, hright⟩ := parts (by omega) hk
          have hpos := hsplit.pos
          have hlt := hsplit.2.1
          obtain ⟨a, ha, hfirst⟩ := ih _ (by rw [List.length_take]; omega) (items.take n) rfl
          obtain ⟨b, hb, hrest⟩ := ih _ (by rw [List.length_drop]; omega) (items.drop n) rfl
          rw [hleft, hright, ha, hb]
          refine ⟨inner_hash_opt_sha2_256 a b, rfl, ?_⟩
          have hnode := @merkle_tree.TreeHash.node sha2_256 _ _ _ _ (by
            rwa [List.take_append_drop, List.length_take, Nat.min_eq_left (by omega)]) hfirst hrest
          rwa [List.take_append_drop] at hnode

/-- It is the hash with a bound on the depth that validator sets and headers are hashed with. -/
theorem hash_from_byte_slices_eq (items : List Bytes) :
    hash_from_byte_slices_sha2_256 items =
      some (cardano_ibc.hash_from_byte_slices_sha2_256 items) := by
  obtain ⟨h, hsome, htree⟩ := hash_from_byte_slices_treeHash items
  have hroot : merkle_tree.TreeHash sha2_256 items
      (cardano_ibc.hash_from_byte_slices_sha2_256 items) := by
    rw [cardano_ibc.hash_from_byte_slices_sha2_256, hashFromByteSlices_eq_root]
    exact merkle_tree.treeHash_root (fun n hn => get_split_point_isSplit hn) (le_refl _)
  rw [hsome, htree.unique hroot]

/-- Every string that is hashed for a list. -/
def hashed (items : List Bytes) : List Bytes :=
  merkle_tree.hashed sha2_256 cardano_ibc.get_split_point items.length items

/-- Two lists with one hash are one list. -/
theorem hash_from_byte_slices_inj {items items' : List Bytes}
    (free : CollisionFree (hashed items ++ hashed items'))
    (h : hash_from_byte_slices_sha2_256 items = hash_from_byte_slices_sha2_256 items') :
    items = items' := by
  rw [hash_from_byte_slices_eq, hash_from_byte_slices_eq, Option.some.injEq,
    cardano_ibc.hash_from_byte_slices_sha2_256, cardano_ibc.hash_from_byte_slices_sha2_256,
    hashFromByteSlices_eq_root, hashFromByteSlices_eq_root] at h
  refine merkle_tree.root_injective Builtins.sha2_256_length get_split_point_splits
    _ items _ items' le_rfl le_rfl ?_ h
  intro x hx y hy hxy
  exact free x (List.mem_append.mpr hx) y (List.mem_append.mpr hy) hxy

/-- The source's hash: it is given for every list and is the one of RFC 6962, a list of two or more is
cut at the largest power of two below its length into two parts that make it up, and the hash fixes
the list where no two of the hashed strings collide. -/
theorem hash_is_rfc6962 (items : List Bytes) :
    (∃ h, hash_from_byte_slices_sha2_256 items = some h ∧
      ∀ h', merkle_tree.TreeHash sha2_256 items h' ↔ h' = h) ∧
    (2 ≤ items.length → ∃ k : Nat, get_split_point items.length = some (k : Int) ∧
      merkle_tree.IsSplit items.length k ∧
      list.slice items 0 (k - 1) ≠ [] ∧ list.slice items k (items.length - 1) ≠ [] ∧
      list.slice items 0 (k - 1) ++ list.slice items k (items.length - 1) = items) ∧
    ∀ items', CollisionFree (hashed items ++ hashed items') →
      hash_from_byte_slices_sha2_256 items = hash_from_byte_slices_sha2_256 items' →
      items = items' := by
  refine ⟨?_, ?_, fun items' => hash_from_byte_slices_inj⟩
  · obtain ⟨h, hsome, htree⟩ := hash_from_byte_slices_treeHash items
    refine ⟨h, hsome, ?_⟩
    intro h'
    constructor
    · exact fun htree' => htree'.unique htree
    · rintro rfl
      exact htree
  · intro hlength
    obtain ⟨k, hk, hsplit, hleft, hright⟩ := parts hlength (get_split_point_eq (by omega))
    have hpos := hsplit.pos
    have hlt := hsplit.2.1
    rw [hk] at hleft hright
    refine ⟨k, by rw [get_split_point_eq (by omega), hk], hsplit, ?_, ?_, ?_⟩
    · rw [hleft, ← List.length_pos_iff, List.length_take]
      omega
    · rw [hright, ← List.length_pos_iff, List.length_drop]
      omega
    · rw [hleft, hright, List.take_append_drop]

end Hashes

end tree

end cardano_ibc
