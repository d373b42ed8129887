-- The Tendermint light client: height.ak, consensus_state.ak, client_state.ak, header.ak,
-- header_handle.ak, misbehaviour.ak, misbehaviour_handle.ak, store.ak and update.ak.
import CardanoIbc.Tendermint.Validation

namespace cardano_ibc

/-! ## Heights -/

structure Height where
  revision_number : Int
  revision_height : Int
deriving DecidableEq, Repr

namespace height

def find_last_dash : Bytes → Nat → Option Nat → Option Nat
  | [], _, last_dash => last_dash
  | b :: rest, index, last_dash =>
    find_last_dash rest (index + 1) (if b = 45 then some index else last_dash)

def is_uint_string (n : Bytes) : Bool :=
  match n with
  | [] => false
  | first :: _ =>
    if n = utf8 "0" then true
    else if first = 0x30 then false
    else n.all fun byte => byte ≥ 0x30 && byte ≤ 0x39

/-- The number after the last dash of a chain id, zero where there is none. -/
def parse_chain_id (chain_id : Bytes) : Option Int :=
  match find_last_dash chain_id 0 none with
  | none => some 0
  | some dash_index =>
    let revision_number := chain_id.drop (dash_index + 1)
    if is_uint_string revision_number then int.from_utf8 revision_number else some 0

def compare (h1 h2 : Height) : Ordering :=
  if h1.revision_number < h2.revision_number then .lt
  else if h1.revision_number > h2.revision_number then .gt
  else if h1.revision_height < h2.revision_height then .lt
  else if h1.revision_height > h2.revision_height then .gt
  else .eq

theorem compare_ne_gt_iff {a b : Height} : compare a b ≠ .gt ↔
    a.revision_number < b.revision_number ∨
      (a.revision_number = b.revision_number ∧ a.revision_height ≤ b.revision_height) := by
  unfold compare
  split_ifs <;> simp <;> omega

theorem compare_ne_lt_iff {a b : Height} : compare a b ≠ .lt ↔ compare b a ≠ .gt := by
  rw [compare_ne_gt_iff]
  unfold compare
  split_ifs <;> simp <;> omega

theorem le_refl (a : Height) : compare a a ≠ .gt := by
  rw [compare_ne_gt_iff]
  omega

theorem le_trans {a b c : Height} (hab : compare a b ≠ .gt) (hbc : compare b c ≠ .gt) :
    compare a c ≠ .gt := by
  rw [compare_ne_gt_iff] at *
  omega

def zero_height : Height := { revision_number := 0, revision_height := 0 }

def is_zero (height : Height) : Bool := height.revision_number == 0 && height.revision_height == 0

end height

/-! ## Client and consensus states -/

structure MerkleRoot where
  hash : Bytes
deriving DecidableEq, Repr

structure ConsensusState where
  timestamp : Int
  next_validators_hash : Bytes
  root : MerkleRoot
deriving DecidableEq, Repr

structure LeafOp where
  hash : Int
  prehash_key : Int
  prehash_value : Int
  length : Int
  prefixBytes : Bytes
deriving DecidableEq, Repr

structure InnerSpec where
  child_order : List Int
  child_size : Int
  min_prefix_length : Int
  max_prefix_length : Int
  empty_child : Bytes
  hash : Int
deriving DecidableEq, Repr

structure ProofSpec where
  leaf_spec : LeafOp
  inner_spec : InnerSpec
  max_depth : Int
  min_depth : Int
  prehash_key_before_comparison : Bool
deriving DecidableEq, Repr

/-- The leaf operation both proof specs share. -/
def specLeaf : LeafOp :=
  { hash := 1, prehash_key := 0, prehash_value := 1, length := 1, prefixBytes := [0] }

def iavl_spec : ProofSpec :=
  { leaf_spec := specLeaf
    inner_spec := { child_order := [0, 1], child_size := 33, min_prefix_length := 4,
                    max_prefix_length := 12, empty_child := [], hash := 1 }
    max_depth := 0
    min_depth := 0
    prehash_key_before_comparison := false }

def tendermint_spec : ProofSpec :=
  { leaf_spec := specLeaf
    inner_spec := { child_order := [0, 1], child_size := 32, min_prefix_length := 1,
                    max_prefix_length := 1, empty_child := [], hash := 1 }
    max_depth := 0
    min_depth := 0
    prehash_key_before_comparison := false }

def validate_specs (specs : List ProofSpec) : Bool := specs == [iavl_spec, tendermint_spec]

structure UncheckedRational where
  numerator : Int
  denominator : Int
deriving DecidableEq, Repr

def to_rational (r : UncheckedRational) : Option Rational :=
  rational.new r.numerator r.denominator

structure ClientState where
  chain_id : Bytes
  trust_level : UncheckedRational
  trusting_period : Int
  unbonding_period : Int
  max_clock_drift : Int
  frozen_height : Height
  latest_height : Height
  proof_specs : List ProofSpec
deriving DecidableEq, Repr

inductive Status where
  | Active | Frozen | Expired | Unknown | Unauthorized
deriving DecidableEq, Repr

def trim_left : Bytes → Bytes
  | [] => []
  | b :: rest => if b = 0x20 then trim_left rest else b :: rest

def trim_space (str : Bytes) : Bytes := (trim_left (trim_left str).reverse).reverse

namespace client_state

/-- `rational.compare_with` on the two bounds, cross-multiplied. -/
def trustLevelInRange (r : Rational) : Bool :=
  r.numerator * 3 ≥ r.denominator && r.numerator ≤ r.denominator

def validate (cs : ClientState) : Option Bool := do
  expect (trim_space cs.chain_id != [])
  expect (cs.chain_id.length ≤ max_chain_id_len)
  let cs_trust_level ← to_rational cs.trust_level
  expect (trustLevelInRange cs_trust_level)
  expect (cs.trusting_period > 0)
  expect (cs.unbonding_period > 0)
  expect (cs.max_clock_drift > 0)
  expect (cs.latest_height.revision_height > 0)
  expect (cs.latest_height.revision_number == (← height.parse_chain_id cs.chain_id))
  expect (cs.trusting_period < cs.unbonding_period)
  expect (validate_specs cs.proof_specs)
  return true

def is_expired (cs : ClientState) (latest_timestamp now : Int) : Bool :=
  latest_timestamp + cs.trusting_period ≤ now

def status (client_state : ClientState) (now : Int)
    (consensus_states : List (Height × ConsensusState)) : Status :=
  if !height.is_zero client_state.frozen_height then .Frozen
  else
    match get_first consensus_states client_state.latest_height with
    | none => .Expired
    | some cons_state =>
      if is_expired client_state cons_state.timestamp now then .Expired else .Active

end client_state

/-! ## Headers -/

structure Header where
  signed_header : SignedHeader
  validator_set : ValidatorSet
  trusted_height : Height
  trusted_validators : ValidatorSet
deriving DecidableEq, Repr

namespace header

def consensus_state (h : Header) : ConsensusState :=
  { timestamp := h.signed_header.header.time
    next_validators_hash := h.signed_header.header.next_validators_hash
    root := { hash := h.signed_header.header.app_hash } }

def get_height (h : Header) : Option Height := do
  let revision ← height.parse_chain_id h.signed_header.header.chain_id
  return { revision_number := revision, revision_height := h.signed_header.header.height }

def get_time (h : Header) : Int := h.signed_header.header.time

def null_header : Header :=
  { signed_header := { header := null_tm_header, commit := null_commit }
    validator_set := validator_set.null_validator_set
    trusted_height := height.zero_height
    trusted_validators := validator_set.null_validator_set }

end header

section Verify

variable [Builtins]

def check_trusted_header (header : Header) (cons_state : ConsensusState) : Option Bool := do
  return cons_state.next_validators_hash == (← validator_set.hash header.trusted_validators)

/-- Only the height, the time and the next validators of the trusted header are known. -/
def trustedHeader (cs : ClientState) (trusted_height : Height) (cons_state : ConsensusState) :
    SignedHeader :=
  { header := { null_tm_header with
      chain_id := cs.chain_id
      height := trusted_height.revision_height
      time := cons_state.timestamp
      next_validators_hash := cons_state.next_validators_hash }
    commit := null_commit }

def verify_header (cs : ClientState) (tx_time : TxTime)
    (consensus_states : List (Height × ConsensusState)) (header : Header) : Option Bool := do
  let cons_state ← get_first consensus_states header.trusted_height
  let cs_trust_level ← to_rational cs.trust_level
  let trusted_header := trustedHeader cs header.trusted_height cons_state
  check_trusted_header header cons_state <&&> (do
    let header_height ← cardano_ibc.header.get_height header
    return header_height.revision_number == header.trusted_height.revision_number &&
      height.compare header_height header.trusted_height == .gt &&
      height.compare header_height cs.latest_height == .gt) <&&>
    verifier.verify trusted_header header.trusted_validators header.signed_header
      header.validator_set cs.trusting_period tx_time cs.max_clock_drift cs_trust_level

/-! ## Misbehaviour -/

structure Misbehaviour where
  client_id : Bytes
  header1 : Header
  header2 : Header
deriving DecidableEq, Repr

namespace misbehaviour

def valid_commit (chain_id : Bytes) (block_id : BlockID) (commit : Commit)
    (val_set : ValidatorSet) : Option Bool :=
  validation.verify_commit_light chain_id val_set block_id commit.height commit none

def validate_header_basic (h : Header) (chain_id : Bytes) : Option Bool := do
  expect (← signed_header.validate_basic h.signed_header chain_id)
  expect (h.signed_header.header.validators_hash == (← validator_set.hash h.validator_set))
  valid_commit chain_id h.signed_header.commit.block_id h.signed_header.commit h.validator_set

def validate_basic (m : Misbehaviour) : Option Bool := do
  expect (m.header1 != header.null_header)
  expect (m.header2 != header.null_header)
  expect (m.header1.trusted_height.revision_height != 0)
  expect (m.header2.trusted_height.revision_height != 0)
  expect (m.header1.trusted_validators != validator_set.null_validator_set)
  expect (m.header2.trusted_validators != validator_set.null_validator_set)
  expect (m.header1.signed_header.header.chain_id == m.header2.signed_header.header.chain_id)
  expect (height.compare (← header.get_height m.header1) (← header.get_height m.header2) != .lt)
  let chain_id := m.header1.signed_header.header.chain_id
  expect (← validate_header_basic m.header1 chain_id)
  expect (← validate_header_basic m.header2 chain_id)
  return true

end misbehaviour

/-- The lowest consensus state above a height, in a list sorted by height. -/
def get_next_consensus_state (consensus_states : List (Height × ConsensusState))
    (h : Height) : Option ConsensusState :=
  consensus_states.foldl (fun acc p =>
    if acc = none ∧ height.compare p.1 h = .gt then some p.2 else acc) none

/-- The highest consensus state below a height, in a list sorted by height. -/
def get_prev_consensus_state (consensus_states : List (Height × ConsensusState))
    (h : Height) : Option ConsensusState :=
  consensus_states.foldr (fun p acc =>
    if acc = none ∧ height.compare p.1 h = .lt then some p.2 else acc) none

inductive ClientMessage where
  | HeaderCase (header : Header)
  | MisbehaviourCase (misbehaviour : Misbehaviour)
deriving DecidableEq, Repr

def check_for_misbehaviour (msg : ClientMessage)
    (consensus_states : List (Height × ConsensusState)) : Option Bool := do
  match msg with
  | .HeaderCase h =>
    let header_height ← header.get_height h
    match get_first consensus_states header_height with
    | some existing_cons_state => return existing_cons_state != header.consensus_state h
    | none =>
      let sorted := sort (fun e1 e2 => height.compare e1.1 e2.1) consensus_states
      let invalid_prev := match get_prev_consensus_state sorted header_height with
        | some prev_cons => prev_cons.timestamp ≥ header.get_time h
        | none => false
      let invalid_next := match get_next_consensus_state sorted header_height with
        | some next_cons => next_cons.timestamp ≤ header.get_time h
        | none => false
      return if !invalid_prev then invalid_next else invalid_prev
  | .MisbehaviourCase m =>
    let t1 := m.header1.signed_header.header.time
    let t2 := m.header2.signed_header.header.time
    match height.compare (← header.get_height m.header1) (← header.get_height m.header2) with
    | .eq => return m.header1.signed_header.commit.block_id.hash !=
        m.header2.signed_header.commit.block_id.hash
    | .gt => return t1 ≤ t2
    | .lt => return t2 ≤ t1

def check_misbehaviour_header (cs : ClientState) (cons_state : ConsensusState) (h : Header)
    (current_timestamp : Int) : Option Bool := do
  expect (← check_trusted_header h cons_state)
  expect (current_timestamp - cons_state.timestamp < cs.trusting_period)
  let cs_trust_level ← to_rational cs.trust_level
  validation.verify_commit_light_trusting cs.chain_id h.trusted_validators
    h.signed_header.commit cs_trust_level none

def verify_misbehaviour (cs : ClientState) (tx_time : TxTime)
    (consensus_states : List (Height × ConsensusState)) (m : Misbehaviour) : Option Bool := do
  expect (← misbehaviour.validate_basic m)
  let cons_state1 ← get_first consensus_states m.header1.trusted_height
  let cons_state2 ← get_first consensus_states m.header2.trusted_height
  expect (← check_misbehaviour_header cs cons_state1 m.header1 tx_time.valid_to)
  expect (← check_misbehaviour_header cs cons_state2 m.header2 tx_time.valid_to)
  return true

def verify_client_message (cs : ClientState) (tx_time : TxTime)
    (consensus_states : List (Height × ConsensusState)) (msg : ClientMessage) : Option Bool :=
  match msg with
  | .HeaderCase header => verify_header cs tx_time consensus_states header
  | .MisbehaviourCase m => verify_misbehaviour cs tx_time consensus_states m

end Verify

end cardano_ibc
