-- Proofs about the committed state of Cardano as the Cosmos-side client checks them:
-- ibc_state_proof.go of the client and of its core package, and VerifyMembership of
-- client_state.go.
import CardanoIbc.Cosmos.Rollover
import CardanoIbc.Cosmos.Unmarshal

namespace cardano_ibc.probabilistic

/-! ## Proofs -/

structure InnerOp where
  prefixBytes : Bytes
  suffixBytes : Bytes
deriving DecidableEq, Repr

structure ExistenceProof where
  key : Bytes
  value : Bytes
  path : List InnerOp
deriving DecidableEq, Repr

/-- `key` and `left` are missing where the message does not have them. -/
structure NonExistenceProof where
  key : Option Bytes
  left : Option ExistenceProof
deriving DecidableEq, Repr

inductive CommitmentProof where
  | exist (proof : ExistenceProof)
  | nonexist (proof : NonExistenceProof)
  | other
deriving DecidableEq, Repr

/-- A proof as the gateway writes it in JSON: texts of hexadecimal digits. -/
structure JsonInnerOp where
  prefixText : Bytes
  suffixText : Bytes

structure JsonExistenceProof where
  key : Bytes
  value : Bytes
  path : List JsonInnerOp

structure JsonNonExistenceProof where
  key : Bytes
  left : Option JsonExistenceProof
  right : Option JsonExistenceProof

structure JsonCommitmentProof where
  exist : Option JsonExistenceProof
  nonexist : Option JsonNonExistenceProof

/-- What the client takes from the generated protobuf code, from `encoding/json` and from the
comparators of the package cardanodatum. A comparator says whether the value the chain expects
and the value Cardano committed are the same record. -/
class Records where
  unmarshalMerkleProof : Bytes → Option (List CommitmentProof)
  unmarshalJsonProof : Bytes → Option (List JsonCommitmentProof)
  connectionsAgree : Bytes → Bytes → Except String Unit
  clientStatesAgree : Bytes → Bytes → Except String Unit
  consensusStatesAgree : Bytes → Bytes → Except String Unit
  channelsAgree : Bytes → Bytes → Except String Unit

/-- Go on only if the condition holds. -/
def demand (c : Bool) (text : String) : Except String Unit := if c then .ok () else .error text

def present {α : Type} (x : Option α) (text : String) : Except String α :=
  match x with
  | some a => .ok a
  | none => .error text

@[simp] theorem demand_eq_ok {c : Bool} {text : String} {u : Unit} :
    demand c text = .ok u ↔ c = true := by
  cases c <;> simp [demand]

@[simp] theorem present_eq_ok {α : Type} {x : Option α} {text : String} {a : α} :
    present x text = .ok a ↔ x = some a := by
  cases x <;> simp [present]

/-! ### The gateway's JSON -/

def hexDigit (c : UInt8) : Option UInt8 :=
  if 48 ≤ c ∧ c ≤ 57 then some (c - 48)
  else if 97 ≤ c ∧ c ≤ 102 then some (c - 87)
  else if 65 ≤ c ∧ c ≤ 70 then some (c - 55)
  else none

/-- `hex.DecodeString`. -/
def decodeHex : Bytes → Option Bytes
  | [] => some []
  | [_] => none
  | a :: b :: rest => do
    let high ← hexDigit a
    let low ← hexDigit b
    return (high * 16 + low) :: (← decodeHex rest)

def toExistenceProof (p : JsonExistenceProof) : Option ExistenceProof := do
  return {
    key := ← decodeHex p.key
    value := ← decodeHex p.value
    path := ← p.path.mapM fun op => do
      return { prefixBytes := ← decodeHex op.prefixText, suffixBytes := ← decodeHex op.suffixText } }

def toNonExistenceProof (p : JsonNonExistenceProof) : Option NonExistenceProof := do
  let key ← decodeHex p.key
  let left ← p.left.mapM toExistenceProof
  let _ ← p.right.mapM toExistenceProof
  return { key := some key, left }

section Verifying

variable [Records]

def DecodeJSONExistenceProof (proofBytes : Bytes) : Except String ExistenceProof := do
  let proofs ← present (Records.unmarshalJsonProof proofBytes) "unable to decode merkle proof bytes"
  let exist ← present (proofs.head?.bind JsonCommitmentProof.exist) "expected existence proof"
  present (toExistenceProof exist) "encoding/hex: invalid text"

def DecodeJSONNonExistenceProof (proofBytes : Bytes) : Except String NonExistenceProof := do
  let proofs ← present (Records.unmarshalJsonProof proofBytes) "unable to decode merkle proof bytes"
  let nonexist ← present (proofs.head?.bind JsonCommitmentProof.nonexist)
    "expected non-existence proof"
  present (toNonExistenceProof nonexist) "encoding/hex: invalid text"

def decodeExistenceProof (proofBytes : Bytes) : Except String ExistenceProof :=
  match Records.unmarshalMerkleProof proofBytes with
  | some [] => .error "empty merkle proof"
  | some (.exist proof :: _) => .ok proof
  | some _ => .error "expected existence proof"
  | none => DecodeJSONExistenceProof proofBytes

def decodeNonExistenceProof (proofBytes : Bytes) : Except String NonExistenceProof :=
  match Records.unmarshalMerkleProof proofBytes with
  | some [] => .error "empty merkle proof"
  | some (.nonexist proof :: _) => .ok proof
  | some _ => .error "expected non-existence proof"
  | none => DecodeJSONNonExistenceProof proofBytes

/-! ## The tree -/

section Tree

omit [Records]

variable [Builtins]

def emptyHash : Bytes := List.replicate 32 0

def leafHash (key value : Bytes) : Bytes :=
  let valueHash := sha2_256 value
  if valueHash = sha2_256 [] then emptyHash
  else sha2_256 ([0] ++ sha2_256 key ++ valueHash)

def innerHash (left right : Bytes) : Bytes :=
  if left.length ≠ 32 ∨ right.length ≠ 32 then []
  else if left = emptyHash ∧ right = emptyHash then emptyHash
  else sha2_256 ([1] ++ left ++ right)

/-- What stands beside the node on its way up, on the left or on the right. -/
def childOrderingFromInnerOp (direction : Nat) (op : InnerOp) :
    Except String (Bytes × Bytes) := do
  if direction = 0 then
    demand (op.prefixBytes == [1]) "invalid inner op prefix for left child"
    demand (op.suffixBytes.length == 32) "invalid inner op suffix length for left child"
    return ([], op.suffixBytes)
  else
    demand (op.suffixBytes.length == 0) "invalid inner op suffix for right child"
    demand (op.prefixBytes.length == 33 && op.prefixBytes.head? == some 1)
      "invalid inner op prefix for right child"
    return (op.prefixBytes.drop 1, [])

def computeRootLoop (index : Nat) : Nat → Bytes → List InnerOp → Except String Bytes
  | _, current, [] => .ok current
  | depth, current, op :: path => do
    let direction := index / 2 ^ depth % 2
    let (left, right) ← childOrderingFromInnerOp direction op
    let current := if direction = 0 then innerHash current right else innerHash left current
    computeRootLoop index (depth + 1) current path

def ComputeRootFromProofPath (key value : Bytes) (path : List InnerOp) : Except String Bytes := do
  demand (path.length == 64) "unexpected proof path length"
  computeRootLoop (cbor_item.ofBe ((sha2_256 key).take 8)) 0 (leafHash key value) path

end Tree

/-! ## Membership -/

/-- `strings.Contains`. -/
def contains (s sub : Bytes) : Bool := s.tails.any fun t => sub.isPrefixOf t

/-- The record the chain expects and the one Cardano committed are the same. What is committed for
a packet or a sequence is read as a byte string. -/
def verifyCardanoValueMatchesExpected (key expectedValue committedValue : Bytes) :
    Except String Unit :=
  if (utf8 "connections/").isPrefixOf key then
    Records.connectionsAgree expectedValue committedValue
  else if (utf8 "clients/").isPrefixOf key && (utf8 "/clientState").isSuffixOf key then
    Records.clientStatesAgree expectedValue committedValue
  else if (utf8 "clients/").isPrefixOf key && contains key (utf8 "/consensusStates/") then
    Records.consensusStatesAgree expectedValue committedValue
  else if (utf8 "channelEnds/").isPrefixOf key then
    Records.channelsAgree expectedValue committedValue
  else if (utf8 "commitments/ports/").isPrefixOf key || (utf8 "acks/ports/").isPrefixOf key ||
      (utf8 "receipts/ports/").isPrefixOf key ||
      (utf8 "nextSequenceRecv/ports/").isPrefixOf key then
    match (cbor_item.read unmarshal.limits committedValue).bind unmarshal.byteSlice with
    | none => .error "failed to decode committed packet bytes CBOR"
    | some committedBytes => demand (committedBytes == expectedValue) "existence proof value mismatch"
  else .error "existence proof value mismatch"

variable [Builtins]

omit [Records] in
/-- The comparison is left out where the two values are the same bytes. -/
def VerifyIbcStateMembershipWithExistenceProof (root key value : Bytes) (exist : ExistenceProof)
    (verifyCommittedValueMatchesExpected : Bytes → Bytes → Bytes → Except String Unit) :
    Except String Unit := do
  demand (exist.key.isEmpty || exist.key == key) "existence proof key mismatch"
  if !exist.value.isEmpty && exist.value != value then
    verifyCommittedValueMatchesExpected key value exist.value
  let committedValue := if exist.value.isEmpty then value else exist.value
  let computed ← ComputeRootFromProofPath key committedValue exist.path
  demand (computed == root) "proof does not match ibc_state_root"

def VerifyIbcStateMembership (root key value proofBytes : Bytes) : Except String Unit := do
  let exist ← decodeExistenceProof proofBytes
  VerifyIbcStateMembershipWithExistenceProof root key value exist verifyCardanoValueMatchesExpected

omit [Records] in
def VerifyIbcStateNonMembershipWithNonExistenceProof (root key : Bytes)
    (nonexist : NonExistenceProof) : Except String Unit := do
  demand (nonexist.key.all fun k => k == key) "non-existence proof key mismatch"
  let left ← present nonexist.left "non-existence proof missing left existence proof"
  demand left.value.isEmpty "non-existence proof left value must be empty"
  let computed ← ComputeRootFromProofPath key [] left.path
  demand (computed == root) "proof does not match ibc_state_root"

def VerifyIbcStateNonMembership (root key proofBytes : Bytes) : Except String Unit := do
  let nonexist ← decodeNonExistenceProof proofBytes
  VerifyIbcStateNonMembershipWithNonExistenceProof root key nonexist

/-! ## The client -/

section Keys

omit [Records] [Builtins]

/-- `strings.SplitN` with two parts: what stands before the separator and what after it. -/
def splitFirst (sep : Bytes) : Bytes → Option (Bytes × Bytes)
  | [] => none
  | b :: rest =>
    if sep.isPrefixOf (b :: rest) then some ([], (b :: rest).drop sep.length)
    else (splitFirst sep rest).map fun (before, after) => (b :: before, after)

def consensusStatesPart : Bytes := utf8 "/consensusStates/"

/-- Cardano commits to a consensus state by its revision height alone. -/
def normalizeConsensusKeyForCardano (path : Bytes) : Bytes :=
  match splitFirst consensusStatesPart path with
  | none => path
  | some (before, after) =>
    match splitFirst (utf8 "-") after with
    | none => path
    | some (number, height) =>
      if number = [] ∨ height = [] then path else before ++ consensusStatesPart ++ height

/-- The last part of the path is the key. -/
def ibcStateKeyFromPath (keyPath : List Bytes) : Except String Bytes := do
  let key ← present keyPath.getLast? "empty MerklePath"
  return normalizeConsensusKeyForCardano key

def verifyDelayPeriodPassed (ctx : Context) (store : Store) (height : Height)
    (delayTimePeriod delayBlockPeriod : UInt64) : Except Err Unit := do
  let processedTime ← found (table.get store.processedTimes height) .ErrProcessedTimeNotFound
  let currentTime := ctx.blockTime.toNat.toUInt64
  require (processedTime + delayTimePeriod ≤ currentTime) .ErrDelayPeriodNotPassed
  let processedHeight ← found (table.get store.processedHeights height) .ErrProcessedHeightNotFound
  require (processedHeight + delayBlockPeriod ≤ ctx.blockHeight) .ErrDelayPeriodNotPassed

end Keys

/-- An error with a text is wrapped. -/
def wrap {α : Type} (result : Except String α) (e : Err) : Except Err α :=
  match result with
  | .ok a => .ok a
  | .error _ => .error e

omit [Records] [Builtins] in
@[simp] theorem wrap_eq_ok {α : Type} {result : Except String α} {e : Err} {a : α} :
    wrap result e = .ok a ↔ result = .ok a := by
  cases result <;> simp [wrap]

def VerifyMembership (ctx : Context) (store : Store) (height : Height)
    (delayTimePeriod delayBlockPeriod : UInt64) (proof : Bytes) (keyPath : List Bytes)
    (value : Bytes) : Except Err Unit := do
  verifyDelayPeriodPassed ctx store height delayTimePeriod delayBlockPeriod
  let consState ← found (store.consensusState height) .ErrConsensusStateNotFound
  let key ← wrap (ibcStateKeyFromPath keyPath) .ErrFailedMembershipVerification
  wrap (VerifyIbcStateMembership consState.ibcStateRoot key value proof)
    .ErrFailedMembershipVerification

/-! ## The next sequence of an ordered channel -/

section NextSequence

omit [Records] [Builtins]

theorem splitFirst_eq {sep s before after : Bytes} (h : splitFirst sep s = some (before, after)) :
    s = before ++ sep ++ after := by
  induction s generalizing before with
  | nil => cases h
  | cons b s ih =>
    unfold splitFirst at h
    split at h
    · rename_i hstart
      rw [List.isPrefixOf_iff_prefix] at hstart
      obtain ⟨tail, htail⟩ := hstart
      simp only [Option.some.injEq, Prod.mk.injEq] at h
      obtain ⟨rfl, rfl⟩ := h
      rw [← htail]
      simp
    · simp only [Option.map_eq_some_iff, Prod.mk.injEq] at h
      obtain ⟨⟨before', after'⟩, hrest, rfl, rfl⟩ := h
      rw [ih hrest]
      simp

/-- What a key begins with stays, unless the part for consensus states is in it. -/
theorem prefix_normalizeConsensusKeyForCardano {p key : Bytes} (hp : p <+: key)
    (hno : ¬ consensusStatesPart <:+: p) : p <+: normalizeConsensusKeyForCardano key := by
  unfold normalizeConsensusKeyForCardano
  split
  · exact hp
  · rename_i before after hsplit
    split
    · exact hp
    · split
      · exact hp
      · rename_i number height _ _
        rw [splitFirst_eq hsplit] at hp
        rcases List.prefix_or_prefix_of_prefix hp (List.prefix_append _ _) with hshort | hlong
        · exact hshort.trans (List.prefix_append _ _)
        · refine absurd ?_ hno
          exact (List.infix_append' before consensusStatesPart []).trans (by simpa using hlong.isInfix)

/-- A number is not a byte string, nor as long as eight bytes. -/
theorem serialise_int_not_bytes {n : Int} (hn : 0 ≤ n ∧ n < 2 ^ 64) :
    (cbor_item.read unmarshal.limits (cbor.serialise n)).bind unmarshal.byteSlice = none := by
  have hread : cbor_item.read unmarshal.limits (cbor.serialise n) = some (.unsigned n.toNat) :=
    cbor_item.read_of_readFrom (readFrom_integer hn)
  rw [hread]
  rfl

theorem length_serialise_int {n : Int} (hn : 0 ≤ n ∧ n < 2 ^ 64) :
    (cbor.serialise n).length ≠ 8 := by
  have hbytes : cbor.serialise n = cbor_item.write 0 n.toNat := by
    show cbor.encode (.integer n) = _
    rw [cbor.encode, cbor.int, if_pos hn.1, if_pos hn.2, head_eq_write]
  rw [hbytes]
  unfold cbor_item.write
  dsimp only
  split_ifs <;> simp

theorem prefix_next_sequence_recv_path (port_id channel_id : Bytes) :
    utf8 "nextSequenceRecv/ports/" <+: next_sequence_recv_path port_id channel_id := by
  have hparts : utf8 "nextSequenceRecv/ports/" =
      key_next_seq_recv_prefix ++ slash ++ key_port_prefix ++ slash := by decide
  refine ⟨port_id ++ slash ++ key_channel_prefix ++ slash ++ channel_id, ?_⟩
  rw [hparts, next_sequence_recv_path, channelKey, channel_path_for_packet]
  simp only [List.append_assoc]

end NextSequence

omit [Builtins] in
/-- What is committed for the next sequence must be a byte string. -/
theorem verifyCardanoValueMatchesExpected_next_sequence {key expectedValue committedValue : Bytes}
    (hkey : utf8 "nextSequenceRecv/ports/" <+: key) :
    verifyCardanoValueMatchesExpected key expectedValue committedValue =
      match (cbor_item.read unmarshal.limits committedValue).bind unmarshal.byteSlice with
      | none => .error "failed to decode committed packet bytes CBOR"
      | some committedBytes =>
        demand (committedBytes == expectedValue) "existence proof value mismatch" := by
  obtain ⟨rest, rfl⟩ := hkey
  have hconnections : (utf8 "connections/").isPrefixOf (utf8 "nextSequenceRecv/ports/" ++ rest) =
    false := by rfl
  have hclients : (utf8 "clients/").isPrefixOf (utf8 "nextSequenceRecv/ports/" ++ rest) =
    false := by rfl
  have hchannels : (utf8 "channelEnds/").isPrefixOf (utf8 "nextSequenceRecv/ports/" ++ rest) =
    false := by rfl
  have hsequence : (utf8 "nextSequenceRecv/ports/").isPrefixOf
      (utf8 "nextSequenceRecv/ports/" ++ rest) = true := by
    simp
  unfold verifyCardanoValueMatchesExpected
  simp only [hconnections, hclients, hchannels, hsequence, Bool.false_and, Bool.false_eq_true,
    if_false, Bool.or_true, if_true]

end Verifying

/-! ### The first sequence of a channel -/

section Sample

local instance membershipBuiltins : Builtins := ledgerBuiltins

def sampleSequencePath : Bytes := next_sequence_recv_path (utf8 "transfer") (utf8 "channel-0")

/-- The proof in a tree that holds nothing but the sequence. -/
def sampleExistence : ExistenceProof where
  key := sampleSequencePath
  value := [1]
  path := (List.range 64).map fun depth =>
    if 0xdbe9a22e3e253395 / 2 ^ depth % 2 = 0 then
      { prefixBytes := [1], suffixBytes := emptyHash }
    else { prefixBytes := 1 :: emptyHash, suffixBytes := [] }

def sampleRoot : Bytes :=
  bigEndian 32 0xbd26f73a2d206dae637243b60d498471561f1ff6fbbb9011e0fc1d6934601007

/-- A field of a message, up to 16383 bytes. -/
def messageField (number : Nat) (bz : Bytes) : Bytes :=
  (number * 8 + 2).toUInt8 :: (if bz.length < 128 then [bz.length.toUInt8]
    else [(bz.length % 128 + 128).toUInt8, (bz.length / 128).toUInt8]) ++ bz

/-- The bytes of the proof as they go over the wire. -/
def sampleProof : Bytes :=
  messageField 1 (messageField 1 (messageField 1 sampleExistence.key ++
    messageField 2 sampleExistence.value ++ sampleExistence.path.flatMap fun op =>
      messageField 4 ([8, 1] ++ messageField 2 op.prefixBytes ++
        if op.suffixBytes = [] then [] else messageField 3 op.suffixBytes)))

local instance membershipRecords : Records where
  unmarshalMerkleProof bz := if bz = sampleProof then some [.exist sampleExistence] else none
  unmarshalJsonProof _ := none
  connectionsAgree _ _ := .error "failed to decode expected ConnectionEnd protobuf"
  clientStatesAgree _ _ := .error "failed to decode expected Tendermint ClientState protobuf"
  consensusStatesAgree _ _ := .error "failed to decode expected Tendermint ConsensusState protobuf"
  channelsAgree _ _ := .error "failed to decode expected Channel protobuf"

/-- A client that has stored the root of that tree. -/
def sequenceStore : Store :=
  { sampleStore genuineContext with
    consensusStates := [(100,
      { timestamp := 1506205090000000000, ibcStateRoot := sampleRoot,
        acceptedBlockHash := utf8 "trusted", acceptedEpoch := 10, uniquePoolsCount := 5,
        uniqueStakeBps := 10000, securityScoreBps := 10000 })] }

theorem decode_sampleProof : decodeExistenceProof sampleProof = .ok sampleExistence := by
  simp [decodeExistenceProof, Records.unmarshalMerkleProof]

end Sample

end cardano_ibc.probabilistic
