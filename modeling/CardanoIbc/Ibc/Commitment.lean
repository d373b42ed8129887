-- The commitment of the host state: ibc_state_commitment.ak. A tree of 64 levels, one leaf for
-- each number the first eight bytes of a key's hash can be.
import CardanoIbc.Prelude

namespace cardano_ibc.ibc_state_commitment

def merkle_depth_bits : Nat := 64

def hash_size_bytes : Nat := 32

/-- The hash of a part of the tree that holds nothing. -/
def empty_hash : Bytes := List.replicate 32 0

def empty_value_hash : Bytes :=
  bigEndian 32 0xe3b0c44298fc1c149afbf4c8996fb92427ae41e4649b934ca495991b7852b855

/-- Bit 0 is the lowest bit of the eighth byte. -/
def bit_at (hash : Bytes) (bit_index : Nat) : Option Nat :=
  hash[7 - bit_index / 8]?.map fun byte => byte.toNat / 2 ^ (bit_index % 8) % 2

variable [Builtins]

def value_hash (value : Bytes) : Bytes := sha2_256 value

def leaf_hash (key_hash value_hash : Bytes) : Option Bytes := do
  expect (key_hash.length == hash_size_bytes)
  expect (value_hash.length == hash_size_bytes)
  if value_hash = empty_value_hash then return empty_hash
  else return sha2_256 ([0] ++ key_hash ++ value_hash)

def inner_hash (left right : Bytes) : Option Bytes := do
  expect (left.length == hash_size_bytes)
  expect (right.length == hash_size_bytes)
  if left = empty_hash ∧ right = empty_hash then return empty_hash
  else return sha2_256 ([1] ++ left ++ right)

def compute_root_go (key_hash : Bytes) : Bytes → List Bytes → Nat → Option Bytes
  | current, [], depth => if depth = merkle_depth_bits then some current else none
  | current, sibling :: rest, depth =>
    -- the source takes no sibling at the last level
    if depth = merkle_depth_bits then none
    else do
      expect (sibling.length == hash_size_bytes)
      let direction_bit ← bit_at key_hash depth
      let next ← if direction_bit = 0 then inner_hash current sibling
        else inner_hash sibling current
      compute_root_go key_hash next rest (depth + 1)

def compute_root (key leaf : Bytes) (siblings : List Bytes) : Option Bytes := do
  expect (leaf.length == hash_size_bytes)
  compute_root_go (sha2_256 key) leaf siblings 0

def apply_update (old_root key old_value new_value : Bytes) (siblings : List Bytes) :
    Option Bytes := do
  expect (old_root.length == hash_size_bytes)
  let key_hash := sha2_256 key
  let old_leaf ← leaf_hash key_hash (value_hash old_value)
  let computed_old_root ← compute_root key old_leaf siblings
  expect (computed_old_root == old_root)
  let new_leaf ← leaf_hash key_hash (value_hash new_value)
  compute_root key new_leaf siblings

end cardano_ibc.ibc_state_commitment
