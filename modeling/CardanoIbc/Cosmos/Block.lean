-- Cardano blocks as the Cosmos-side client reads them: cardano_block.go and host_state.go of the
-- core package, and the host state transaction of host_state_commitment.go. The bytes of a
-- block are kept as what they decode to.
import CardanoIbc.Cosmos.EpochContext
import CardanoIbc.Ledger.Cbor

namespace cardano_ibc.probabilistic

structure OutputRef where
  txHash : Bytes
  index : Nat
deriving DecidableEq, Repr

structure TransactionOutput where
  value : Value
  datum : Option PlutusData

/-- The parts of a transaction's body that say what it does to the ledger. -/
structure TransactionBody where
  hash : Bytes
  inputs : List OutputRef
  outputs : List TransactionOutput
  mint : Value
  collateral : List OutputRef
  collateralReturn : Option TransactionOutput

structure OperationalCertificate where
  hotVkey : Bytes
  sequenceNumber : UInt64
  kesPeriod : UInt64
  signature : Bytes
deriving DecidableEq, Repr

/-- `vrfResult` is the output and the proof; it is missing where the field has another shape. -/
structure BlockHeader where
  blockNumber : UInt64
  slot : UInt64
  prevHash : Bytes
  issuerVkey : Bytes
  vrfKey : Bytes
  vrfResult : Option (Bytes × Bytes)
  blockBodyHash : Bytes
  opCert : OperationalCertificate
  kesSignature : Bytes
deriving DecidableEq, Repr

/-- The four parts of a block's body as they stand in its bytes. -/
structure RawBlockBodyFields where
  transactionBodies : Bytes
  transactionWitnessSets : Bytes
  transactionMetadataSet : Bytes
  invalidTransactions : Bytes
deriving DecidableEq, Repr

/-- A block of the Babbage or the Conway era. -/
structure LedgerBlock where
  header : BlockHeader
  hash : Bytes
  bodyFields : RawBlockBodyFields
  transactions : List TransactionBody
  invalidTransactions : List Nat

/-- What the client takes from its cryptographic libraries. A check is `none` where the library
gives an error. -/
class Native where
  verifyKes : BlockHeader → UInt64 → Option Bool
  mkInputVrf : UInt64 → Bytes → Bytes
  vrfVerifyAndHash : Bytes → Bytes → Bytes → Option Bytes
  sum256 : Bytes → Bytes
  poolIdOf : Bytes → Bytes

export Native (verifyKes mkInputVrf vrfVerifyAndHash sum256 poolIdOf)

/-! ## Blocks -/

section Blocks

variable [Native]

def verifyRawBlockBody (fields : RawBlockBodyFields) (blockBodyHash : Bytes) : Bool :=
  sum256 (sum256 fields.transactionBodies ++ sum256 fields.transactionWitnessSets ++
    sum256 fields.transactionMetadataSet ++ sum256 fields.invalidTransactions) == blockBodyHash

/-- Whether the block is signed and its leader value proven, and the key of that proof. -/
def VerifyNativeBlock (block : LedgerBlock) (epochNonce : Bytes) (slotsPerKesPeriod : UInt64) :
    Except Err (Bool × Bytes) := do
  let isKesValid ← found (verifyKes block.header slotsPerKesPeriod) .ErrInvalidAcceptedBlock
  let (vrfOutput, vrfProof) ← found block.header.vrfResult .ErrInvalidAcceptedBlock
  let seed := mkInputVrf block.header.slot epochNonce
  let output ← found (vrfVerifyAndHash block.header.vrfKey vrfProof seed) .ErrInvalidAcceptedBlock
  let isVrfValid := output == vrfOutput
  let isBodyValid := verifyRawBlockBody block.bodyFields block.header.blockBodyHash
  return (isKesValid && isVrfValid && isBodyValid, block.header.vrfKey)

end Blocks

/-! ## The host state datum

The decoder reads a Go struct from an array of as many items, whatever constructor it is tagged
with, and a list of numbers below 256 also as bytes. -/

namespace fxcbor

/-- The array a datum is written as. -/
def array : PlutusData → Option (List PlutusData)
  | .constr index fields =>
    if index < 128 then some fields else some [.integer index, .list fields]
  | .list items => some items
  | _ => none

def uint64 : PlutusData → Option UInt64
  | .integer n => if 0 ≤ n ∧ n < 2 ^ 64 then some n.toNat.toUInt64 else none
  | _ => none

def byte : PlutusData → Option UInt8
  | .integer n => if 0 ≤ n ∧ n < 256 then some n.toNat.toUInt8 else none
  | _ => none

def bytes : PlutusData → Option Bytes
  | .bytes bz => some bz
  | d => do (← array d).mapM byte

end fxcbor

/-- The fields of the Go struct, with the ports as a list of numbers. -/
structure HostState where
  Version : UInt64
  IbcStateRoot : Bytes
  NextClientSequence : UInt64
  NextConnectionSeq : UInt64
  NextChannelSeq : UInt64
  BoundPort : List UInt64
  LastUpdateTimeMillis : UInt64

structure HostStateDatum where
  State : HostState
  NftPolicy : Bytes
  Deployer : Bytes
  Shutdown : PlutusData

def decodeHostState (data : PlutusData) : Option HostState := do
  match ← fxcbor.array data with
  | [version, root, client, connection, channel, ports, time] =>
    return {
      Version := ← fxcbor.uint64 version
      IbcStateRoot := ← fxcbor.bytes root
      NextClientSequence := ← fxcbor.uint64 client
      NextConnectionSeq := ← fxcbor.uint64 connection
      NextChannelSeq := ← fxcbor.uint64 channel
      BoundPort := ← (← fxcbor.array ports).mapM fxcbor.uint64
      LastUpdateTimeMillis := ← fxcbor.uint64 time }
  | _ => none

def decodeHostStateDatum (data : PlutusData) : Option HostStateDatum := do
  match ← fxcbor.array data with
  | [state, policy, deployer, shutdown] =>
    return {
      State := ← decodeHostState state
      NftPolicy := ← fxcbor.bytes policy
      Deployer := ← fxcbor.bytes deployer
      Shutdown := shutdown }
  | _ => none

def ExtractIbcStateRootFromHostStateDatum (data : PlutusData) (expectedNftPolicyId : Bytes) :
    Except Err Bytes := do
  let datum ← found (decodeHostStateDatum data) .ErrInvalidHostStateCommitment
  require (expectedNftPolicyId.isEmpty || datum.NftPolicy == expectedNftPolicyId)
    .ErrInvalidHostStateCommitment
  require (datum.State.IbcStateRoot.length == 32) .ErrInvalidHostStateCommitment
  return datum.State.IbcStateRoot

/-! ## The host state transaction -/

section Transactions

variable [Texts]

/-- The transaction with this hash. Whether the block counts it as invalid is not asked. -/
def ExtractHostStateTxBodyFromAnchorBlock (block : LedgerBlock) (hostStateTxHash : Bytes) :
    Except Err TransactionBody :=
  found (block.transactions.find? fun tx => equalFold tx.hash hostStateTxHash)
    .ErrInvalidHostStateCommitment

def ExtractIbcStateRootFromTransactionBody (txBody : TransactionBody) (txHash : Bytes)
    (outputIndex : Nat) (hostStateNftPolicyId hostStateNftTokenName : Bytes) :
    Except Err Bytes := do
  require (!txHash.isEmpty) .ErrInvalidHostStateCommitment
  require (toLower txBody.hash == toLower txHash) .ErrInvalidHostStateCommitment
  let out ← found txBody.outputs[outputIndex]? .ErrInvalidHostStateCommitment
  require (hostStateNftPolicyId.isEmpty || hostStateNftTokenName.isEmpty ||
    assets.quantity_of out.value hostStateNftPolicyId hostStateNftTokenName == 1)
    .ErrInvalidHostStateCommitment
  let datum ← found out.datum .ErrInvalidHostStateCommitment
  ExtractIbcStateRootFromHostStateDatum datum hostStateNftPolicyId

end Transactions

end cardano_ibc.probabilistic
