-- The Cosmos-side client of Cardano: client_state.go, header.go, checkpoint.go, store.go and
-- block_authentication.go, with the header checks of update.go.
import CardanoIbc.Cosmos.Block
import CardanoIbc.Library.Table

namespace cardano_ibc.probabilistic

/-! ## Messages and states

A height is its revision height: no function reads the other number, and a height that was left
out is `none`. -/

abbrev Height := UInt64

structure ProbabilisticBlock where
  height : Option Height
  slot : UInt64
  hash : Bytes
  epoch : UInt64
  timestamp : UInt64
  blockCbor : Option LedgerBlock

structure ProbabilisticHeader where
  trustedHeight : Option Height
  anchorBlock : Option ProbabilisticBlock
  descendantBlocks : List ProbabilisticBlock
  hostStateTxHash : Bytes
  hostStateTxOutputIndex : Nat
  bridgeBlocks : List ProbabilisticBlock
  newEpochContext : Option EpochContext
  isCheckpoint : Bool

structure ClientState where
  chainId : Bytes
  latestHeight : Option Height
  frozenHeight : Option Height
  currentEpoch : UInt64
  trustingPeriod : Int
  hostStateNftPolicyId : Bytes
  hostStateNftTokenName : Bytes
  epochStakeDistribution : List StakeDistributionEntry
  epochNonce : Bytes
  slotsPerKesPeriod : UInt64
  currentEpochStartSlot : UInt64
  currentEpochEndSlotExclusive : UInt64
  systemStartUnixNs : UInt64
  slotLengthNs : UInt64
  epochContexts : List EpochContext
  latestCheckpointHeight : Option Height
  latestCheckpointBlockHash : Bytes
  latestCheckpointEpoch : UInt64

structure ConsensusState where
  timestamp : UInt64
  ibcStateRoot : Bytes
  acceptedBlockHash : Bytes
  acceptedEpoch : UInt64
  uniquePoolsCount : UInt64
  uniqueStakeBps : UInt64
  securityScoreBps : UInt64
deriving DecidableEq, Repr

/-- The client's part of the chain's store: one table for each kind of key it writes. -/
structure Store where
  clientState : ClientState
  consensusStates : List (Height × ConsensusState)
  processedTimes : List (Height × UInt64)
  processedHeights : List (Height × UInt64)
  iterationKeys : List (Height × Unit)
  scores : List (Height × UInt64)
  uniquePools : List (Height × UInt64)
  uniqueStakes : List (Height × UInt64)
  acceptedBlockHashes : List (Height × Bytes)

/-- The block of the Cosmos chain a message is run in. -/
structure Context where
  blockTime : Int
  blockHeight : UInt64

def Store.consensusState (store : Store) (height : Height) : Option ConsensusState :=
  table.get store.consensusStates height

def isZero (height : Option Height) : Bool := height.getD 0 == 0

variable [Texts]

def ClientState.normalizedEpochContexts (cs : ClientState) : Except Err (List EpochContext) :=
  normalizeEpochContexts cs.epochContexts

def validateBlocks (blocks : List ProbabilisticBlock) : Except Err Unit :=
  require (blocks.all fun block => block.blockCbor.isSome) .ErrInvalidAcceptedBlock

/-- The header's anchor block and its height. -/
def anchorOf (h : ProbabilisticHeader) : Except Err (ProbabilisticBlock × Height) := do
  let anchor ← found h.anchorBlock .ErrInvalidHeader
  let height ← found anchor.height .ErrInvalidHeader
  return (anchor, height)

def ProbabilisticHeader.ValidateBasic (h : ProbabilisticHeader) : Except Err Unit := do
  let trustedHeight ← found h.trustedHeight .ErrInvalidHeader
  require (trustedHeight != 0) .ErrInvalidHeaderHeight
  let (anchor, height) ← anchorOf h
  require (height != 0) .ErrInvalidHeaderHeight
  require (!anchor.hash.isEmpty) .ErrInvalidAcceptedBlock
  require anchor.blockCbor.isSome .ErrInvalidAcceptedBlock
  require (trustedHeight < height) .ErrInvalidHeaderHeight
  if h.isCheckpoint then
    require (h.hostStateTxHash.isEmpty && h.hostStateTxOutputIndex == 0)
      .ErrInvalidHostStateCommitment
  else
    require (!h.hostStateTxHash.isEmpty) .ErrInvalidHostStateCommitment
  match h.newEpochContext with
  | some ctx => validateEpochContext ctx
  | none => pure ()
  validateBlocks h.bridgeBlocks
  validateBlocks h.descendantBlocks

/-! ## The trusted block -/

structure TrustedBlockState where
  height : Height
  blockHash : Bytes
  epoch : UInt64

def ClientState.validateCheckpointFields (cs : ClientState) : Except Err Unit := do
  if isZero cs.latestCheckpointHeight then
    require (cs.latestCheckpointBlockHash.isEmpty && cs.latestCheckpointEpoch == 0)
      .ErrInvalidHeaderHeight
  else
    require (!isZero cs.latestHeight) .ErrInvalidHeaderHeight
    require (cs.latestHeight.getD 0 ≤ cs.latestCheckpointHeight.getD 0) .ErrInvalidHeaderHeight
    require (trimSpace cs.latestCheckpointBlockHash != []) .ErrInvalidAcceptedBlock

/-- The longest chain id that CometBFT allows. -/
def MaxChainIDLen : Nat := 50

def ClientState.Validate (cs : ClientState) : Except Err Unit := do
  require (trimSpace cs.chainId != []) .ErrInvalidChainID
  require (cs.chainId.length ≤ MaxChainIDLen) .ErrInvalidChainID
  require (!isZero cs.latestHeight) .ErrInvalidHeaderHeight
  require (0 < cs.trustingPeriod) .ErrInvalidTrustingPeriod
  require (cs.hostStateNftPolicyId.length == 28) .ErrInvalidClient
  require (cs.hostStateNftTokenName.length != 0) .ErrInvalidClient
  require (cs.systemStartUnixNs != 0) .ErrInvalidTimestamp
  require (cs.slotLengthNs != 0) .ErrInvalidTimestamp
  cs.validateCheckpointFields
  let contexts ← cs.normalizedEpochContexts
  require (contexts.length != 0) .ErrInvalidCurrentEpoch
  require (epochContextByEpoch contexts cs.currentEpoch).isSome .ErrInvalidCurrentEpoch

def trustedBlockStateAtHeight (store : Store) (height : Option Height) :
    Except Err TrustedBlockState := do
  let cs := store.clientState
  require (!isZero height) .ErrInvalidHeaderHeight
  let height := height.getD 0
  if !isZero cs.latestCheckpointHeight && height == cs.latestCheckpointHeight.getD 0 then
    if cs.latestHeight == some height then
      let consensusState ← found (store.consensusState height) .ErrConsensusStateNotFound
      require (equalFold cs.latestCheckpointBlockHash consensusState.acceptedBlockHash &&
        cs.latestCheckpointEpoch == consensusState.acceptedEpoch) .ErrInvalidAcceptedBlock
    return { height, blockHash := cs.latestCheckpointBlockHash, epoch := cs.latestCheckpointEpoch }
  else
    let consensusState ← found (store.consensusState height) .ErrConsensusStateNotFound
    return { height, blockHash := consensusState.acceptedBlockHash,
             epoch := consensusState.acceptedEpoch }

def latestTrustedBlockState (store : Store) : Except Err TrustedBlockState := do
  store.clientState.validateCheckpointFields
  if isZero store.clientState.latestCheckpointHeight then
    trustedBlockStateAtHeight store store.clientState.latestHeight
  else trustedBlockStateAtHeight store store.clientState.latestCheckpointHeight

/-! ## Authenticating blocks -/

structure AuthenticatedBlock where
  height : UInt64
  slot : UInt64
  hash : Bytes
  prevHash : Bytes
  epoch : UInt64
  timestamp : UInt64
  slotLeader : Bytes
deriving DecidableEq, Repr

structure AuthenticatedHeader where
  anchorBlock : AuthenticatedBlock
  bridgeBlocks : List AuthenticatedBlock
  descendantBlocks : List AuthenticatedBlock
deriving DecidableEq, Repr

/-- The last time there is for a slot is the last that fits in 64 bits. -/
def ClientState.DeriveTimestampFromSlot (cs : ClientState) (slot : UInt64) : Except Err UInt64 := do
  require (cs.systemStartUnixNs != 0) .ErrInvalidTimestamp
  require (cs.slotLengthNs != 0) .ErrInvalidTimestamp
  require (slot ≤ (0xffffffffffffffff - cs.systemStartUnixNs) / cs.slotLengthNs)
    .ErrInvalidTimestamp
  return cs.systemStartUnixNs + slot * cs.slotLengthNs

def findStakeDistributionEntryInContext (ctx : EpochContext) (poolID : Bytes) :
    Except Err StakeDistributionEntry :=
  found (ctx.stakeDistribution.find? fun entry => equalFold entry.poolId poolID)
    .ErrInvalidCurrentEpoch

def verifySlotWithinEpochContext (slot : UInt64) (ctx : EpochContext) : Except Err Unit :=
  require (ctx.epochStartSlot ≤ slot && slot < ctx.epochEndSlotExclusive) .ErrInvalidCurrentEpoch

variable [Native]

def verifyNativeProbabilisticBlock (block : LedgerBlock) (ctx : EpochContext) :
    Except Err (Bytes × Bytes) := do
  let (isValid, vrfKey) ← VerifyNativeBlock block ctx.epochNonce ctx.slotsPerKesPeriod
  require isValid .ErrInvalidAcceptedBlock
  return (poolIdOf block.header.issuerVkey, sum256 vrfKey)

def ClientState.authenticateProbabilisticBlock (cs : ClientState) (block : ProbabilisticBlock)
    (epochContexts : List EpochContext) : Except Err AuthenticatedBlock := do
  let height ← found block.height .ErrInvalidAcceptedBlock
  let decoded ← found block.blockCbor .ErrInvalidAcceptedBlock
  require (equalFold decoded.hash block.hash) .ErrInvalidAcceptedBlock
  require (decoded.header.blockNumber == height) .ErrInvalidAcceptedBlock
  require (decoded.header.slot == block.slot) .ErrInvalidAcceptedBlock
  let expectedTimestamp ← cs.DeriveTimestampFromSlot block.slot
  require (block.timestamp == expectedTimestamp) .ErrInvalidTimestamp
  let ctx ← found (epochContextForSlot epochContexts decoded.header.slot) .ErrInvalidCurrentEpoch
  require (block.epoch == ctx.epoch) .ErrInvalidCurrentEpoch
  verifySlotWithinEpochContext decoded.header.slot ctx
  let (poolID, vrfKeyHash) ← verifyNativeProbabilisticBlock decoded ctx
  let stakeEntry ← findStakeDistributionEntryInContext ctx poolID
  require (stakeEntry.vrfKeyHash == vrfKeyHash) .ErrInvalidAcceptedBlock
  return { height := decoded.header.blockNumber, slot := decoded.header.slot, hash := decoded.hash,
           prevHash := decoded.header.prevHash, epoch := ctx.epoch, timestamp := expectedTimestamp,
           slotLeader := poolID }

/-- The host state transaction a header names, taken from its anchor block. -/
def extractHostStateTxBody (header : ProbabilisticHeader) : Except Err TransactionBody := do
  let (anchor, _) ← anchorOf header
  let block ← found anchor.blockCbor .ErrInvalidHostStateCommitment
  ExtractHostStateTxBodyFromAnchorBlock block header.hostStateTxHash

def ClientState.ExtractIbcStateRootFromHostStateTx (cs : ClientState)
    (header : ProbabilisticHeader) : Except Err Bytes := do
  let txBody ← extractHostStateTxBody header
  ExtractIbcStateRootFromTransactionBody txBody header.hostStateTxHash
    header.hostStateTxOutputIndex cs.hostStateNftPolicyId cs.hostStateNftTokenName

def ClientState.authenticateHeaderBlocksWithContexts (cs : ClientState)
    (header : ProbabilisticHeader) (epochContexts : List EpochContext) :
    Except Err AuthenticatedHeader := do
  let (anchor, _) ← anchorOf header
  let anchorBlock ← cs.authenticateProbabilisticBlock anchor epochContexts
  let bridgeBlocks ← header.bridgeBlocks.mapM fun block =>
    cs.authenticateProbabilisticBlock block epochContexts
  let descendantBlocks ← header.descendantBlocks.mapM fun block =>
    cs.authenticateProbabilisticBlock block epochContexts
  if !header.isCheckpoint then
    let _ ← extractHostStateTxBody header
  return { anchorBlock, bridgeBlocks, descendantBlocks }

end cardano_ibc.probabilistic
