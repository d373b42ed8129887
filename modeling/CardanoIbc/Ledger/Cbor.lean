-- `cbor.serialise`: the bytes the ledger writes a script's data as, and the data of each
-- record the host state commits to.
import CardanoIbc.Ibc.Types

namespace cardano_ibc

/-- Data without its types. -/
inductive PlutusData where
  | constr (index : Nat) (fields : List PlutusData)
  | map (pairs : List (PlutusData × PlutusData))
  | list (items : List PlutusData)
  | integer (n : Int)
  | bytes (bz : Bytes)

namespace cbor

/-- A major type and its argument in the shortest of the five forms. -/
def head (major n : Nat) : Bytes :=
  let m := major * 32
  if n < 24 then [(m + n).toUInt8]
  else if n < 2 ^ 8 then (m + 24).toUInt8 :: bigEndian 1 n
  else if n < 2 ^ 16 then (m + 25).toUInt8 :: bigEndian 2 n
  else if n < 2 ^ 32 then (m + 26).toUInt8 :: bigEndian 4 n
  else (m + 27).toUInt8 :: bigEndian 8 n

/-- Pieces of 64 bytes; the fuel is the number of pieces at most. -/
def chunks : Nat → Bytes → List Bytes
  | 0, _ => []
  | fuel + 1, bz => if bz = [] then [] else bz.take 64 :: chunks fuel (bz.drop 64)

/-- A byte string; one over 64 bytes is written in pieces. -/
def bytestring (bz : Bytes) : Bytes :=
  if bz.length ≤ 64 then head 2 bz.length ++ bz
  else [0x5f] ++ (chunks bz.length bz).flatMap (fun c => head 2 c.length ++ c) ++ [0xff]

def natBytes (n : Nat) : Bytes := (Nat.digits 256 n).reverse.map Nat.toUInt8

/-- An integer; one that does not fit in 64 bits is a tagged byte string. -/
def int (n : Int) : Bytes :=
  if 0 ≤ n then
    if n < 2 ^ 64 then head 0 n.toNat else head 6 2 ++ bytestring (natBytes n.toNat)
  else
    let m := (-1 - n).toNat
    if m < 2 ^ 64 then head 1 m else head 6 3 ++ bytestring (natBytes m)

/-- The tag of a constructor. -/
def constrTag (index : Nat) : Bytes :=
  if index < 7 then head 6 (121 + index)
  else if index < 128 then head 6 (1280 + (index - 7))
  else head 6 102 ++ head 4 2 ++ head 0 index

/-- A list is written without its length, but for the empty one. -/
def wrapList (isEmpty : Bool) (items : Bytes) : Bytes :=
  if isEmpty then head 4 0 else [0x9f] ++ items ++ [0xff]

mutual

def encode : PlutusData → Bytes
  | .constr index fields => constrTag index ++ wrapList fields.isEmpty (encodeItems fields)
  | .map pairs => head 5 pairs.length ++ encodePairs pairs
  | .list items => wrapList items.isEmpty (encodeItems items)
  | .integer n => int n
  | .bytes bz => bytestring bz

def encodeItems : List PlutusData → Bytes
  | [] => []
  | d :: ds => encode d ++ encodeItems ds

def encodePairs : List (PlutusData × PlutusData) → Bytes
  | [] => []
  | (k, v) :: rest => encode k ++ encode v ++ encodePairs rest

end

theorem head_ne_nil (major n : Nat) : head major n ≠ [] := by
  unfold head
  split_ifs <;> simp

theorem bytestring_ne_nil (bz : Bytes) : bytestring bz ≠ [] := by
  unfold bytestring
  split <;> simp [head_ne_nil]

theorem encode_ne_nil (d : PlutusData) : encode d ≠ [] := by
  cases d with
  | constr index fields =>
    unfold encode constrTag
    split_ifs <;> simp [head_ne_nil]
  | map pairs => simp [encode, head_ne_nil]
  | list items =>
    unfold encode wrapList
    split_ifs <;> simp [head_ne_nil]
  | integer n =>
    simp only [encode, int]
    split_ifs <;> simp [head_ne_nil]
  | bytes bz => simpa [encode] using bytestring_ne_nil bz

/-- Records that have data of their own. -/
class ToData (α : Type) where
  toData : α → PlutusData

def serialise {α : Type} [ToData α] (a : α) : Bytes := encode (ToData.toData a)

/-- What is serialised is never the empty value, which stands for an absent one. -/
theorem serialise_ne_nil {α : Type} [ToData α] (a : α) : serialise a ≠ [] := encode_ne_nil _

open PlutusData ToData

instance : ToData Int := ⟨integer⟩

instance : ToData Bool := ⟨fun b => constr (if b then 1 else 0) []⟩

instance {α : Type} [ToData α] : ToData (List α) := ⟨fun xs => list (xs.map toData)⟩

-- a byte string is a list of bytes here, but it is not written as a list
instance (priority := 2000) : ToData (List UInt8) := ⟨bytes⟩

instance : ToData Height := ⟨fun h => constr 0 [toData h.revision_number, toData h.revision_height]⟩

instance : ToData MerkleRoot := ⟨fun r => constr 0 [toData r.hash]⟩

instance : ToData ConsensusState :=
  ⟨fun c => constr 0 [toData c.timestamp, toData c.next_validators_hash, toData c.root]⟩

instance : ToData UncheckedRational :=
  ⟨fun r => constr 0 [toData r.numerator, toData r.denominator]⟩

instance : ToData LeafOp :=
  ⟨fun op => constr 0 [toData op.hash, toData op.prehash_key, toData op.prehash_value,
    toData op.length, toData op.prefixBytes]⟩

instance : ToData InnerSpec :=
  ⟨fun s => constr 0 [toData s.child_order, toData s.child_size, toData s.min_prefix_length,
    toData s.max_prefix_length, toData s.empty_child, toData s.hash]⟩

instance : ToData ProofSpec :=
  ⟨fun s => constr 0 [toData s.leaf_spec, toData s.inner_spec, toData s.max_depth,
    toData s.min_depth, toData s.prehash_key_before_comparison]⟩

instance : ToData ClientState :=
  ⟨fun cs => constr 0 [toData cs.chain_id, toData cs.trust_level, toData cs.trusting_period,
    toData cs.unbonding_period, toData cs.max_clock_drift, toData cs.frozen_height,
    toData cs.latest_height, toData cs.proof_specs]⟩

instance : ToData Version := ⟨fun v => constr 0 [toData v.identifier, toData v.features]⟩

instance : ToData MerklePrefix := ⟨fun p => constr 0 [toData p.key_prefix]⟩

instance : ToData Counterparty :=
  ⟨fun c => constr 0 [toData c.client_id, toData c.connection_id, toData c.prefixKey]⟩

instance : ToData ConnectionState :=
  ⟨fun
    | .Uninitialized => constr 0 []
    | .Init => constr 1 []
    | .TryOpen => constr 2 []
    | .Open => constr 3 []⟩

instance : ToData ConnectionEnd :=
  ⟨fun c => constr 0 [toData c.client_id, toData c.versions, toData c.state,
    toData c.counterparty, toData c.delay_period]⟩

instance : ToData ChannelState :=
  ⟨fun
    | .Uninitialized => constr 0 []
    | .Init => constr 1 []
    | .TryOpen => constr 2 []
    | .Open => constr 3 []
    | .Closed => constr 4 []⟩

instance : ToData Order :=
  ⟨fun
    | .None => constr 0 []
    | .Unordered => constr 1 []
    | .Ordered => constr 2 []⟩

instance : ToData ChannelCounterparty :=
  ⟨fun c => constr 0 [toData c.port_id, toData c.channel_id]⟩

instance : ToData Channel :=
  ⟨fun c => constr 0 [toData c.state, toData c.ordering, toData c.counterparty,
    toData c.connection_hops, toData c.version]⟩

instance : ToData AuthToken := ⟨fun t => constr 0 [toData t.policy_id, toData t.name]⟩

instance : ToData ModuleRegistration :=
  ⟨fun r => constr 0 [toData r.module_script_hash, toData r.port_token, toData r.module_token]⟩

instance : ToData ShutdownState :=
  ⟨fun
    | .Active => constr 0 []
    | .ShuttingDown initiated_at grace_period_end =>
      constr 1 [toData initiated_at, toData grace_period_end]⟩

-- `Pairs` are a map, also where there are none
instance {α β : Type} [ToData α] [ToData β] : ToData (List (α × β)) :=
  ⟨fun pairs => map (pairs.map fun (k, v) => (toData k, toData v))⟩

instance : ToData HostState :=
  ⟨fun s => constr 0 [toData s.version, toData s.ibc_state_root, toData s.next_client_sequence,
    toData s.next_connection_sequence, toData s.next_channel_sequence, toData s.bound_port,
    toData s.last_update_time]⟩

instance : ToData HostStateDatum :=
  ⟨fun d => constr 0 [toData d.state, toData d.nft_policy, toData d.deployer, toData d.shutdown]⟩

end cbor

end cardano_ibc
