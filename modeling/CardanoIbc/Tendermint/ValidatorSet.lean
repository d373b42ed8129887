-- Validators and their hash: cometbft/tm_validator.ak, validator_set.ak, the keys and
-- validator messages of protos/, and crypto/merkle.
import CardanoIbc.Library.MerkleTree
import CardanoIbc.Protobuf
import Mathlib.Algebra.BigOperators.Group.List.Basic

namespace cardano_ibc

/-! ## The Merkle tree of byte slices -/

def empty_hash : Bytes :=
  bigEndian 32 0xe3b0c44298fc1c149afbf4c8996fb92427ae41e4649b934ca495991b7852b855

/-- `list.slice`: from the first index to the second one, both inside. -/
def slice {α : Type} (items : List α) (start stop : Nat) : List α :=
  (items.drop start).take (stop + 1 - start)

/-- The largest power of two below the length. -/
def get_split_point (length : Nat) : Nat :=
  let k := 2 ^ Nat.log2 length
  if k = length then k / 2 else k

section Hashes

variable [Builtins]

def leaf_hash_opt_sha2_256 (leaf : Bytes) : Bytes := sha2_256 (0 :: leaf)

def inner_hash_opt_sha2_256 (left right : Bytes) : Bytes := sha2_256 ((1 :: left) ++ right)

/-- The recursion of `hash_from_byte_slices_sha2_256`, with a bound on its depth. -/
def hashFromByteSlices : Nat → List Bytes → Bytes
  | _, [] => empty_hash
  | _, [leaf] => leaf_hash_opt_sha2_256 leaf
  | 0, _ :: _ :: _ => empty_hash
  | depth + 1, x :: y :: zs =>
    let items := x :: y :: zs
    let k := get_split_point items.length
    inner_hash_opt_sha2_256 (hashFromByteSlices depth (slice items 0 (k - 1)))
      (hashFromByteSlices depth (slice items k (items.length - 1)))

def hash_from_byte_slices_sha2_256 (items : List Bytes) : Bytes :=
  hashFromByteSlices items.length items

end Hashes

theorem get_split_point_splits : merkle_tree.Splits get_split_point := by
  intro n hn
  have hle : 2 ^ Nat.log2 n ≤ n := Nat.log2_self_le (by omega)
  have hpos : 0 < 2 ^ Nat.log2 n := Nat.two_pow_pos _
  unfold get_split_point
  simp only
  split <;> omega

theorem hashFromByteSlices_eq_root [Builtins] (depth : Nat) (items : List Bytes) :
    hashFromByteSlices depth items =
      merkle_tree.root sha2_256 get_split_point depth items := by
  induction depth generalizing items with
  | zero =>
    match items with
    | [] => exact Builtins.sha2_256_empty.symm
    | [x] => rfl
    | x :: y :: zs => exact Builtins.sha2_256_empty.symm
  | succ depth ih =>
    match items with
    | [] => exact Builtins.sha2_256_empty.symm
    | [x] => rfl
    | x :: y :: zs =>
      have hk := get_split_point_splits (zs.length + 2) (by omega)
      have hleft : ∀ k, 0 < k → slice (x :: y :: zs) 0 (k - 1) = (x :: y :: zs).take k := by
        intro k h
        simp [slice, show k - 1 + 1 = k by omega]
      have hright : ∀ k, slice (x :: y :: zs) k (zs.length + 2 - 1) = (x :: y :: zs).drop k := by
        intro k
        refine List.take_of_length_le ?_
        simp only [List.length_drop, List.length_cons]
        omega
      simp only [hashFromByteSlices, List.length_cons, Nat.add_assoc, Nat.reduceAdd,
        hleft _ hk.1, hright, ih]
      rfl

/-! ## Validators -/

inductive PublicKey where
  | PublicKey_Ed25519 (sum : Bytes)
  | PublicKey_Secp256K1 (sum : Bytes)
deriving DecidableEq, Repr

def marshal_for_public_key (pk : PublicKey) : Option (Int × Bytes) := do
  let (key, identifier) := match pk with
    | .PublicKey_Ed25519 sum => (sum, field_1_length_delimited)
    | .PublicKey_Secp256K1 sum => (sum, field_2_length_delimited)
  return size_and_concat (0, []) (← encode_bytearray key identifier)

structure SimpleValidator where
  pub_key : PublicKey
  voting_power : Int
deriving DecidableEq, Repr

def marshal_for_simple_validator (sv : SimpleValidator) : Option (Int × Bytes) := do
  let key ← nest_record (← marshal_for_public_key sv.pub_key) field_1_length_delimited
  let power ← encode_int sv.voting_power field_2_varint
  return add_and_concat (add_and_concat (0, []) key) power

structure Validator where
  address : Bytes
  pubkey : Bytes
  voting_power : Int
  proposer_priority : Int
deriving DecidableEq, Repr

/-- `tm_validator.bytes`: the address is not in it. -/
def tm_validator.bytes (v : Validator) : Option Bytes := do
  let pbv : SimpleValidator :=
    { pub_key := .PublicKey_Ed25519 v.pubkey, voting_power := v.voting_power }
  return (← marshal_for_simple_validator pbv).2

/-- What a public key is written as: nothing if it is empty. -/
theorem marshal_for_public_key_eq_some {key bz : Bytes} {size : Int}
    (h : marshal_for_public_key (.PublicKey_Ed25519 key) = some (size, bz)) :
    size = bz.length ∧ ((key = [] ∧ bz = []) ∨
      ∃ len, encode_length_varint key.length = some len ∧ bz = 10 :: (len ++ key)) := by
  simp only [marshal_for_public_key, encode_bytearray, bind_eq_some, pure_eq_some] at h
  obtain ⟨⟨l, out⟩, hout, hsize⟩ := h
  split at hout
  · rename_i hempty
    simp only [Option.some.injEq, Prod.mk.injEq] at hout
    obtain ⟨rfl, rfl⟩ := hout
    simp only [size_and_concat, ↓reduceIte, List.append_nil, Prod.mk.injEq] at hsize
    obtain ⟨rfl, rfl⟩ := hsize
    exact ⟨rfl, .inl ⟨List.length_eq_zero_iff.mp hempty, rfl⟩⟩
  · rename_i hkey
    simp only [bind_eq_some, pure_eq_some, push_eq_some, Prod.mk.injEq] at hout
    obtain ⟨len, hlen, bz2, ⟨-, -, rfl⟩, rfl, rfl⟩ := hout
    simp only [size_and_concat, show ¬ (key.length : Int) = 0 by omega, ↓reduceIte,
      List.nil_append, Prod.mk.injEq] at hsize
    obtain ⟨rfl, rfl⟩ := hsize
    refine ⟨?_, .inr ⟨len, hlen, rfl⟩⟩
    have := length_encode_length_varint hlen
    simp only [List.length_cons, List.length_append]
    omega

/-- What a power is written as: nothing if it is zero, else its value modulo 2^64. -/
theorem encode_power_eq_some {power n : Int} {bz : Bytes}
    (h : encode_int power field_2_varint = some (n, bz)) :
    (power = 0 ∧ bz = []) ∨
      (power ≠ 0 ∧ bz = 16 :: varint.encode (uint64 power).toNat) := by
  unfold encode_int at h
  split at h
  · rename_i hzero
    simp only [Option.some.injEq, Prod.mk.injEq] at h
    exact .inl ⟨hzero, h.2.symm⟩
  · rename_i hzero
    simp only [encode_varint_uint64, bind_eq_some, pure_eq_some, push_eq_some,
      Option.some.injEq, Prod.mk.injEq, exists_eq_left'] at h
    obtain ⟨ out, ⟨-, -, rfl⟩, -, rfl⟩ := h
    exact .inr ⟨hzero, rfl⟩

/-- What a validator is written as: its key with a length before it, then its power. -/
theorem tm_validator.bytes_eq_some {v : Validator} {out : Bytes} (h : tm_validator.bytes v = some out) :
    ∃ key len power,
      marshal_for_public_key (.PublicKey_Ed25519 v.pubkey) = some (((key : Bytes).length : Int), key) ∧
      encode_length_varint key.length = some len ∧
      (∃ n, encode_int v.voting_power field_2_varint = some (n, power)) ∧
      out = 10 :: (len ++ (key ++ power)) := by
  simp only [tm_validator.bytes, marshal_for_simple_validator, nest_record, bind_eq_some,
    pure_eq_some, push_eq_some] at h
  obtain ⟨_, ⟨⟨size, key⟩, hkey, _, ⟨len, hlen, bz, ⟨-, -, rfl⟩, rfl⟩, ⟨n, power⟩, hpower, rfl⟩,
    rfl⟩ := h
  obtain ⟨rfl, -⟩ := marshal_for_public_key_eq_some hkey
  exact ⟨key, len, power, hkey, hlen, ⟨n, hpower⟩, by simp [add_and_concat]; rfl⟩

/-- The bytes of a validator fix its key, and its power only modulo 2^64. -/
theorem tm_validator.bytes_inj {v w : Validator} {out : Bytes} (hv : tm_validator.bytes v = some out)
    (hw : tm_validator.bytes w = some out) :
    v.pubkey = w.pubkey ∧ uint64 v.voting_power = uint64 w.voting_power := by
  obtain ⟨key, len, power, hkey, hlen, ⟨_, hpower⟩, rfl⟩ := tm_validator.bytes_eq_some hv
  obtain ⟨key', len', power', hkey', hlen', ⟨_, hpower'⟩, heq⟩ := tm_validator.bytes_eq_some hw
  obtain ⟨hsize, hrest⟩ :=
    encode_length_varint_append_inj hlen hlen' (List.cons.inj heq).2
  obtain ⟨rfl, rfl⟩ := List.append_inj hrest (by omega)
  refine ⟨?_, ?_⟩
  · rcases (marshal_for_public_key_eq_some hkey).2 with ⟨h, rfl⟩ | ⟨l, hl, rfl⟩ <;>
      rcases (marshal_for_public_key_eq_some hkey').2 with ⟨h', hk⟩ | ⟨l', hl', hk⟩
    · rw [h, h']
    · cases hk
    · cases hk
    · exact (encode_length_varint_append_inj hl hl' (List.cons.inj hk).2).2
  · rcases encode_power_eq_some hpower with ⟨h, rfl⟩ | ⟨h, rfl⟩ <;>
      rcases encode_power_eq_some hpower' with ⟨h', hp⟩ | ⟨h', hp⟩
    · rw [h, h']
    · cases hp
    · cases hp
    · have := varint.encode_inj (List.cons.inj hp).2
      have := uint64_nonneg v.voting_power
      have := uint64_nonneg w.voting_power
      omega

def null_validator : Validator :=
  { address := [], pubkey := [], voting_power := 0, proposer_priority := 0 }

structure ValidatorSet where
  validators : List Validator
  proposer : Validator
  total_voting_power : Int
deriving DecidableEq, Repr

namespace validator_set

def hash [Builtins] (vals : ValidatorSet) : Option Bytes := do
  return hash_from_byte_slices_sha2_256 (← vals.validators.mapM tm_validator.bytes)

def null_validator_set : ValidatorSet :=
  { validators := [], proposer := null_validator, total_voting_power := 0 }

/-- The relayed aggregate is not read. -/
def total_voting_power (vals : ValidatorSet) : Int :=
  vals.validators.foldl (fun acc val => acc + val.voting_power) 0

def size (vals : ValidatorSet) : Nat := vals.validators.length

def get_by_address (vals : ValidatorSet) (address : Bytes) : Option Validator :=
  vals.validators.find? fun val => val.address == address

theorem total_voting_power_eq_sum (vals : ValidatorSet) :
    total_voting_power vals = (vals.validators.map Validator.voting_power).sum := by
  unfold total_voting_power
  rw [← List.foldl_map (f := Validator.voting_power) (g := fun a b => a + b),
    ← List.sum_eq_foldl]

end validator_set

/-! ## What the hash binds -/

/-- Two validators a hash cannot tell apart. -/
def SameEntry (v w : Validator) : Prop :=
  v.pubkey = w.pubkey ∧ uint64 v.voting_power = uint64 w.voting_power

theorem same_entries_of_bytes {vs ws : List Validator} {bzs : List Bytes}
    (hv : vs.mapM tm_validator.bytes = some bzs) (hw : ws.mapM tm_validator.bytes = some bzs) :
    List.Forall₂ SameEntry vs ws := by
  induction vs generalizing ws bzs with
  | nil =>
    simp only [List.mapM_nil, pure_eq_some] at hv
    subst hv
    cases ws with
    | nil => exact .nil
    | cons w ws =>
      simp only [List.mapM_cons, bind_eq_some, pure_eq_some] at hw
      obtain ⟨_, _, _, _, h⟩ := hw
      cases h
  | cons v vs ih =>
    simp only [List.mapM_cons, bind_eq_some, pure_eq_some] at hv
    obtain ⟨bz, hbz, rest, hrest, rfl⟩ := hv
    cases ws with
    | nil => simp at hw
    | cons w ws =>
      simp only [List.mapM_cons, bind_eq_some, pure_eq_some, List.cons.injEq] at hw
      obtain ⟨bz', hbz', rest', hrest', rfl, rfl⟩ := hw
      exact .cons (tm_validator.bytes_inj hbz hbz') (ih hrest hrest')

section Binding

variable [Builtins]

/-- Every string hashed to get the hash of a validator set. -/
def validator_set.hashed (vals : ValidatorSet) : List Bytes :=
  match vals.validators.mapM tm_validator.bytes with
  | some bzs => merkle_tree.hashed sha2_256 get_split_point bzs.length bzs
  | none => []

/-- No two of these strings have one digest. -/
def CollisionFree (strings : List Bytes) : Prop :=
  ∀ x ∈ strings, ∀ y ∈ strings, sha2_256 x = sha2_256 y → x = y

instance (strings : List Bytes) : Decidable (CollisionFree strings) :=
  inferInstanceAs (Decidable (∀ x ∈ strings, ∀ y ∈ strings, sha2_256 x = sha2_256 y → x = y))

/-- Two validator sets with one hash have the same keys in the same places, and the same
powers modulo 2^64. -/
theorem validator_set.hash_binds {V G : ValidatorSet} {h : Bytes}
    (hV : validator_set.hash V = some h) (hG : validator_set.hash G = some h)
    (free : CollisionFree (validator_set.hashed V ++ validator_set.hashed G)) :
    List.Forall₂ SameEntry V.validators G.validators := by
  simp only [validator_set.hash, bind_eq_some, pure_eq_some, hash_from_byte_slices_sha2_256,
    hashFromByteSlices_eq_root] at hV hG
  obtain ⟨xs, hxs, rfl⟩ := hV
  obtain ⟨ys, hys, hroot⟩ := hG
  have inj : Set.InjOn sha2_256 {m | m ∈ merkle_tree.hashed sha2_256 get_split_point ys.length ys ∨
      m ∈ merkle_tree.hashed sha2_256 get_split_point xs.length xs} := by
    intro x hx y hy hxy
    refine free x ?_ y ?_ hxy <;>
      simp only [validator_set.hashed, hxs, hys, List.mem_append]
    · exact hx.symm
    · exact hy.symm
  obtain rfl := merkle_tree.root_injective Builtins.sha2_256_length get_split_point_splits
    _ ys _ xs le_rfl le_rfl inj hroot
  exact same_entries_of_bytes hxs hys

end Binding

end cardano_ibc
