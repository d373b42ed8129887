-- Blocks, commits and the bytes a validator signs: cometbft/block, canonical.ak, vote.ak,
-- signed_header.ak and the messages of protos/ they are written with.
import CardanoIbc.Tendermint.ValidatorSet

namespace cardano_ibc

def tm_hash_size : Nat := 32
def address_size : Nat := 20
def max_signature_size : Nat := 64
def max_chain_id_len : Nat := 50
def block_id_flag_commit : Int := 2
def precommit_type : Int := 2
def block_protocol : Int := 11

/-! ## Block ids -/

structure PartSetHeader where
  total : Int
  hash : Bytes
deriving DecidableEq, Repr

structure BlockID where
  hash : Bytes
  part_set_header : PartSetHeader
deriving DecidableEq, Repr

def null_block_id : BlockID := { hash := [], part_set_header := { total := 0, hash := [] } }

def block_id.validate_basic (block_id : BlockID) : Bool :=
  is_empty_or_size block_id.hash tm_hash_size &&
    is_empty_or_size block_id.part_set_header.hash tm_hash_size &&
    block_id.part_set_header.total ≥ 0

/-- `canonicalize_block_id` copies the fields, so the canonical id is the id itself. -/
def marshal_for_part_set_header (psh : PartSetHeader) : Option (Int × Bytes) := do
  let total ← encode_int psh.total field_1_varint
  let hash ← encode_bytearray psh.hash field_2_length_delimited
  return size_and_concat (add_and_concat (0, []) total) hash

def marshal_for_block_id (block_id : BlockID) : Option (Int × Bytes) := do
  let hash ← encode_bytearray block_id.hash field_1_length_delimited
  let psh ← nest_record (← marshal_for_part_set_header block_id.part_set_header)
    field_2_length_delimited
  return add_and_concat (size_and_concat (0, []) hash) psh

/-! ## Timestamps -/

structure Timestamp where
  seconds : Int
  nanos : Int

def marshal_for_timestamp (ts : Timestamp) : Option (Int × Bytes) := do
  let seconds ← encode_int ts.seconds field_1_varint
  let nanos ← encode_int ts.nanos field_2_varint
  return add_and_concat (add_and_concat (0, []) seconds) nanos

def validate_timestamp (ts : Timestamp) : Bool :=
  ts.seconds ≥ -62135596800 && ts.seconds < 253402300800 && ts.nanos ≥ 0 &&
    ts.nanos ≤ 1000000000

def timestamp_proto (t : Int) : Option Timestamp :=
  let ts : Timestamp := { seconds := t / 1000000000, nanos := t % 1000000000 }
  if validate_timestamp ts then some ts else none

/-! ## Commits -/

structure CommitSig where
  block_id_flag : Int
  validator_address : Bytes
  timestamp : Int
  signature : Bytes
deriving DecidableEq, Repr

def commit_sig.validate_basic (c : CommitSig) : Option Bool :=
  if c.block_id_flag = 1 then
    some (c.validator_address.length == 0 && c.timestamp == 0 && c.signature.length == 0)
  else if c.block_id_flag = 2 ∨ c.block_id_flag = 3 then
    if c.validator_address.length ≠ address_size then some false
    else some (c.signature.length > 0 && c.signature.length ≤ max_signature_size)
  else none

structure Commit where
  height : Int
  round : Int
  block_id : BlockID
  signatures : List CommitSig
deriving DecidableEq, Repr

def null_commit : Commit :=
  { height := 0, round := 0, block_id := null_block_id, signatures := [] }

def is_zero_part_set_header (part_set_header : PartSetHeader) : Bool :=
  part_set_header.total == 0 && part_set_header.hash == []

def is_zero_block_id (block_id : BlockID) : Bool :=
  block_id.hash == [] && is_zero_part_set_header block_id.part_set_header

def commit.validate_basic (commit : Commit) : Option Bool :=
  pure (commit.height ≥ 0 && commit.round ≥ 0) <&&>
    if commit.height ≥ 1 then
      pure (!is_zero_block_id commit.block_id && !commit.signatures.isEmpty) <&&>
        commit.signatures.allM commit_sig.validate_basic
    else pure true

/-! ## Votes -/

structure CanonicalVote where
  v_type : Int
  height : Int
  round : Int
  block_id : BlockID
  timestamp : Int
  chain_id : Bytes

def marshal_for_vote (vote : CanonicalVote) : Option (Int × Bytes) := do
  let v_type ← encode_int vote.v_type field_1_varint
  let height ← encode_int_little_endian vote.height field_2_fixed64 9
  let round ← encode_int_little_endian vote.round field_3_fixed64 9
  let block_id ← nest_record (← marshal_for_block_id vote.block_id) field_4_length_delimited
  let ts ← timestamp_proto vote.timestamp
  let timestamp ← nest_record (← marshal_for_timestamp ts) field_5_length_delimited
  let chain_id ← encode_bytearray vote.chain_id field_6_length_delimited
  return size_and_concat
    (add_and_concat (add_and_concat (add_and_concat (add_and_concat (add_and_concat (0, [])
      v_type) height) round) block_id) timestamp)
    chain_id

def marshal_delimited_for_vote (vote : CanonicalVote) : Option Bytes := do
  let (length, bytes) ← marshal_for_vote vote
  return (← encode_varint length) ++ bytes

/-- `get_vote` and `canonicalize_vote` in one step: the vote of one signature of a commit. -/
def canonicalize_vote (chain_id : Bytes) (commit : Commit) (commit_sig : CommitSig) :
    CanonicalVote :=
  { v_type := precommit_type
    height := commit.height
    round := commit.round
    block_id := commit.block_id
    timestamp := commit_sig.timestamp
    chain_id := chain_id }

def vote_sign_bytes_for_commit (commit : Commit) (chain_id : Bytes) (val_idx : Nat) :
    Option Bytes := do
  let commit_sig ← commit.signatures[val_idx]?
  marshal_delimited_for_vote (canonicalize_vote chain_id commit commit_sig)

/-! ## Headers -/

structure Consensus where
  block : Int
  app : Int
deriving DecidableEq, Repr

def marshal_for_consensus (consensus : Consensus) : Option (Int × Bytes) := do
  let block ← encode_int consensus.block field_1_varint
  let app ← encode_int consensus.app field_2_varint
  return add_and_concat (add_and_concat (0, []) block) app

structure TmHeader where
  version : Consensus
  chain_id : Bytes
  height : Int
  time : Int
  last_block_id : BlockID
  last_commit_hash : Bytes
  data_hash : Bytes
  validators_hash : Bytes
  next_validators_hash : Bytes
  consensus_hash : Bytes
  app_hash : Bytes
  last_results_hash : Bytes
  evidence_hash : Bytes
  proposer_address : Bytes
deriving DecidableEq, Repr

def null_tm_header : TmHeader :=
  { version := { block := 0, app := 0 }, chain_id := [], height := 0, time := 0,
    last_block_id := null_block_id, last_commit_hash := [], data_hash := [],
    validators_hash := [], next_validators_hash := [], consensus_hash := [], app_hash := [],
    last_results_hash := [], evidence_hash := [], proposer_address := [] }

namespace tm_header

def validate_basic (header : TmHeader) : Bool :=
  header.version.block == block_protocol &&
    header.chain_id.length ≤ max_chain_id_len &&
    header.height > 0 &&
    block_id.validate_basic header.last_block_id &&
    is_empty_or_size header.last_commit_hash tm_hash_size &&
    is_empty_or_size header.data_hash tm_hash_size &&
    is_empty_or_size header.evidence_hash tm_hash_size &&
    is_empty_or_size header.next_validators_hash tm_hash_size &&
    is_empty_or_size header.proposer_address 20 &&
    is_empty_or_size header.validators_hash tm_hash_size &&
    is_empty_or_size header.next_validators_hash tm_hash_size &&
    is_empty_or_size header.consensus_hash tm_hash_size &&
    is_empty_or_size header.last_results_hash tm_hash_size &&
    header.time > 0

def encode_length_delimited_field (value : Bytes) : Option Bytes :=
  if value = [] then some []
  else do
    let encoded_length ←
      if value.length < 128 then push [] value.length else encode_varint value.length
    push (encoded_length ++ value) field_1_length_delimited

/-- The fourteen leaves of the header hash. -/
def leaves (h : TmHeader) : Option (List Bytes) := do
  let hbz ← marshal_for_consensus h.version
  let chain_id ← encode_length_delimited_field h.chain_id
  let height ←
    if h.height = 0 then some [] else do push (← encode_varint (uint64 h.height)) field_1_varint
  let pbt ← match timestamp_proto h.time with
    | some ts => (marshal_for_timestamp ts).map Prod.snd
    | none => some []
  let bzbi ← marshal_for_block_id h.last_block_id
  let rest ← [h.last_commit_hash, h.data_hash, h.validators_hash, h.next_validators_hash,
    h.consensus_hash, h.app_hash, h.last_results_hash, h.evidence_hash,
    h.proposer_address].mapM encode_length_delimited_field
  return [hbz.2, chain_id, height, pbt, bzbi.2] ++ rest

def hash [Builtins] (h : TmHeader) : Option Bytes := do
  let items ← leaves h
  return if h.validators_hash = [] then [] else hash_from_byte_slices_sha2_256 items

end tm_header

structure SignedHeader where
  header : TmHeader
  commit : Commit
deriving DecidableEq, Repr

def signed_header.validate_basic [Builtins] (sh : SignedHeader) (chain_id : Bytes) :
    Option Bool := do
  expect (sh.header != null_tm_header && sh.commit != null_commit)
  expect (← pure (tm_header.validate_basic sh.header) <&&> commit.validate_basic sh.commit)
  expect (sh.header.chain_id == chain_id)
  expect (sh.commit.height == sh.header.height)
  expect ((← tm_header.hash sh.header) == sh.commit.block_id.hash)
  return true

end cardano_ibc
