-- The tree the commitment of the host state is meant to be the root of, and what the functions of
-- ibc_state_commitment.ak do to it.
import CardanoIbc.Ibc.Commitment
import CardanoIbc.Library.SparseTree

namespace cardano_ibc.ibc_state_commitment

variable [Builtins]

/-- Whether a key stands on the right at a height. -/
def onRight (key_hash : Bytes) (bit_index : Nat) : Bool := bit_at key_hash bit_index == some 1

def node (left right : Bytes) : Bytes :=
  if left = empty_hash ∧ right = empty_hash then empty_hash else sha2_256 ([1] ++ left ++ right)

/-- What stands for a key with a value; the empty value stands for none. -/
def leaf (key value : Bytes) : Bytes :=
  if value_hash value = empty_value_hash then empty_hash
  else sha2_256 ([0] ++ sha2_256 key ++ value_hash value)

def scheme : sparse_tree.Scheme Bytes Bytes where
  bit := onRight
  empty := empty_hash
  node := node
  node_empty := by simp [node]

/-- The leaves of some keys with their values. -/
def leaves (entries : List (Bytes × Bytes)) : List (Bytes × Bytes) :=
  entries.map fun e => (sha2_256 e.1, leaf e.1 e.2)

def treeRoot (entries : List (Bytes × Bytes)) : Bytes :=
  scheme.root merkle_depth_bits (leaves entries)

/-! ### The functions of the source on it -/

theorem length_node (left right : Bytes) : (node left right).length = 32 := by
  unfold node
  split
  · rfl
  · exact Builtins.sha2_256_length _

theorem length_leaf (key value : Bytes) : (leaf key value).length = 32 := by
  unfold leaf
  split
  · rfl
  · exact Builtins.sha2_256_length _

theorem leaf_hash_eq (key value : Bytes) :
    leaf_hash (sha2_256 key) (value_hash value) = some (leaf key value) := by
  have hkey : (sha2_256 key).length = hash_size_bytes := Builtins.sha2_256_length key
  have hvalue : (value_hash value).length = hash_size_bytes := Builtins.sha2_256_length value
  simp only [leaf_hash, leaf, hkey, hvalue, beq_self_eq_true, expect_true]
  split <;> rfl

theorem inner_hash_eq {left right : Bytes} (hleft : left.length = 32)
    (hright : right.length = 32) : inner_hash left right = some (node left right) := by
  have hleft' : left.length = hash_size_bytes := hleft
  have hright' : right.length = hash_size_bytes := hright
  simp only [inner_hash, node, hleft', hright', beq_self_eq_true, expect_true]
  split <;> rfl

omit [Builtins] in
/-- A hash has all the bits that are asked for. -/
theorem bit_at_eq {key_hash : Bytes} (h : key_hash.length = 32) (i : Nat) :
    bit_at key_hash i = some (if onRight key_hash i then 1 else 0) := by
  have hindex : 7 - i / 8 < key_hash.length := by omega
  have hbit : bit_at key_hash i =
      some (key_hash[7 - i / 8].toNat / 2 ^ (i % 8) % 2) := by
    simp [bit_at, List.getElem?_eq_getElem hindex]
  rw [hbit, onRight, hbit]
  rcases Nat.mod_two_eq_zero_or_one (key_hash[7 - i / 8].toNat / 2 ^ (i % 8)) with h | h <;>
    simp [h]

theorem length_climb {key_hash current : Bytes} {depth : Nat} (h : current.length = 32)
    (siblings : List Bytes) : (scheme.climb key_hash depth current siblings).length = 32 := by
  induction siblings generalizing current depth with
  | nil => exact h
  | cons s siblings ih => exact ih (length_node _ _)

/-- One step up the tree, on the side the key stands. -/
theorem compute_root_go_cons {key_hash current sibling : Bytes} {depth : Nat}
    (hkey : key_hash.length = 32) (hcurrent : current.length = 32)
    (hsibling : sibling.length = 32) (hdepth : depth ≠ merkle_depth_bits)
    (siblings : List Bytes) :
    compute_root_go key_hash current (sibling :: siblings) depth =
      compute_root_go key_hash (node (scheme.pair key_hash depth current sibling).1
        (scheme.pair key_hash depth current sibling).2) siblings (depth + 1) := by
  have hsize : sibling.length = hash_size_bytes := hsibling
  have hpair : scheme.pair key_hash depth current sibling =
      if onRight key_hash depth then (sibling, current) else (current, sibling) := rfl
  rw [compute_root_go, if_neg hdepth, hpair, bit_at_eq hkey]
  cases onRight key_hash depth
  · simp [hsize, inner_hash_eq hcurrent hsibling]
  · simp [hsize, inner_hash_eq hsibling hcurrent]

theorem compute_root_go_eq_some {key_hash current root : Bytes} {siblings : List Bytes}
    {depth : Nat} (hkey : key_hash.length = 32) (hcurrent : current.length = 32) :
    compute_root_go key_hash current siblings depth = some root ↔
      siblings.length + depth = 64 ∧ (∀ s ∈ siblings, s.length = 32) ∧
        scheme.climb key_hash depth current siblings = root := by
  induction siblings generalizing current depth with
  | nil =>
    by_cases hdepth : depth = 64 <;>
      simp [compute_root_go, merkle_depth_bits, sparse_tree.Scheme.climb, hdepth]
  | cons s siblings ih =>
    by_cases hdepth : depth = merkle_depth_bits
    · simp only [compute_root_go, hdepth, if_true, reduceCtorEq, false_iff, not_and]
      intro hlength
      simp only [List.length_cons, merkle_depth_bits] at hlength
      omega
    · by_cases hs : s.length = 32
      · rw [compute_root_go_cons hkey hcurrent hs hdepth, ih (length_node _ _)]
        simp only [List.length_cons, List.forall_mem_cons, hs, true_and,
          sparse_tree.Scheme.climb]
        rw [show siblings.length + (depth + 1) = siblings.length + 1 + depth by omega]
        rfl
      · have hsize : (s.length == hash_size_bytes) = false := by simpa [hash_size_bytes] using hs
        simp [compute_root_go, hdepth, hsize, expect, hs]

/-- An update is taken with as many hashes as the tree is deep that lead from the old value to
the old root, and leads to where they lead from the new value. -/
theorem apply_update_eq_some {old_root key old_value new_value new_root : Bytes}
    {siblings : List Bytes} :
    apply_update old_root key old_value new_value siblings = some new_root ↔
      siblings.length = merkle_depth_bits ∧ (∀ s ∈ siblings, s.length = 32) ∧
        scheme.climb (sha2_256 key) 0 (leaf key old_value) siblings = old_root ∧
        scheme.climb (sha2_256 key) 0 (leaf key new_value) siblings = new_root := by
  have hkey := Builtins.sha2_256_length key
  have hgo : ∀ {value root : Bytes}, compute_root key (leaf key value) siblings = some root ↔
      siblings.length = merkle_depth_bits ∧ (∀ s ∈ siblings, s.length = 32) ∧
        scheme.climb (sha2_256 key) 0 (leaf key value) siblings = root := by
    intro value root
    have hleaf : (leaf key value).length = hash_size_bytes := length_leaf key value
    simp only [compute_root, hleaf, beq_self_eq_true, expect_true]
    exact compute_root_go_eq_some hkey (length_leaf key value)
  have hlength : ∀ {root : Bytes},
      scheme.climb (sha2_256 key) 0 (leaf key old_value) siblings = root → root.length = 32 := by
    intro root hroot
    rw [← hroot]
    exact length_climb (length_leaf key old_value) siblings
  simp only [apply_update, leaf_hash_eq, bind_eq_some, expect_eq_some, beq_iff_eq,
    Option.some.injEq, exists_eq_left', hgo]
  constructor
  · rintro ⟨_, _, _, ⟨hcount, hall, rfl⟩, _, rfl, -, -, hnew⟩
    exact ⟨hcount, hall, rfl, hnew⟩
  · rintro ⟨hcount, hall, hold, hnew⟩
    exact ⟨(), hlength hold, _, ⟨hcount, hall, rfl⟩, (), hold, hcount, hall, hnew⟩

end cardano_ibc.ibc_state_commitment
