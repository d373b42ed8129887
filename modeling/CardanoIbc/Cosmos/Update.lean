-- How the Cosmos-side client verifies a header and what it stores: update.go,
-- heuristic_policy.go, checkpoint.go and misbehaviour_handle.go.
import CardanoIbc.Cosmos.Client

namespace cardano_ibc.probabilistic

def poolRegistrationCutoffUnixNs : UInt64 := 1767225600000000000

def DefaultThresholdDepth : UInt64 := 24
def DefaultThresholdUniquePools : UInt64 := 5
def DefaultThresholdUniqueStakeBps : UInt64 := 511
def DefaultDepthWeightBps : UInt64 := 2000
def DefaultPoolsWeightBps : UInt64 := 2000
def DefaultStakeWeightBps : UInt64 := 6000

/-! ## Epochs and continuity -/

def verifyHeaderEpochTransition (header : ProbabilisticHeader) (trustedBlock : TrustedBlockState)
    (authenticated : AuthenticatedHeader) : Except Err Unit := do
  let trustedEpoch := trustedBlock.epoch
  let anchorEpoch := authenticated.anchorBlock.epoch
  if anchorEpoch < trustedEpoch then throw .ErrInvalidCurrentEpoch
  else if anchorEpoch = trustedEpoch then
    require (header.newEpochContext.all fun ctx => ctx.epoch == anchorEpoch) .ErrInvalidCurrentEpoch
  else if anchorEpoch = trustedEpoch + 1 then
    require (header.newEpochContext.any fun ctx => ctx.epoch == anchorEpoch) .ErrInvalidCurrentEpoch
  else throw .ErrInvalidCurrentEpoch
  require (authenticated.bridgeBlocks.all fun block =>
    block.epoch == trustedEpoch || block.epoch == anchorEpoch) .ErrInvalidCurrentEpoch
  require (authenticated.descendantBlocks.all fun block => block.epoch == anchorEpoch)
    .ErrInvalidCurrentEpoch

/-- The epochs of a header: the anchor's is the trusted one or the next, a context it brings is for
it, and the blocks after the anchor stay in it. -/
structure Transition (header : ProbabilisticHeader) (trusted : TrustedBlockState)
    (authenticated : AuthenticatedHeader) : Prop where
  anchor : authenticated.anchorBlock.epoch = trusted.epoch ∨
    authenticated.anchorBlock.epoch = trusted.epoch + 1
  brought : ∀ ctx, header.newEpochContext = some ctx →
    ctx.epoch = authenticated.anchorBlock.epoch
  bridge : ∀ b ∈ authenticated.bridgeBlocks,
    b.epoch = trusted.epoch ∨ b.epoch = authenticated.anchorBlock.epoch
  descendants : ∀ b ∈ authenticated.descendantBlocks,
    b.epoch = authenticated.anchorBlock.epoch

theorem verifyHeaderEpochTransition_spec {header : ProbabilisticHeader}
    {trusted : TrustedBlockState} {authenticated : AuthenticatedHeader}
    (h : verifyHeaderEpochTransition header trusted authenticated = .ok ()) :
    Transition header trusted authenticated := by
  have hrest : ∀ {c : Bool}, (do
      require c Err.ErrInvalidCurrentEpoch
      require (authenticated.bridgeBlocks.all fun block =>
        block.epoch == trusted.epoch || block.epoch == authenticated.anchorBlock.epoch)
        .ErrInvalidCurrentEpoch
      require (authenticated.descendantBlocks.all fun block =>
        block.epoch == authenticated.anchorBlock.epoch) .ErrInvalidCurrentEpoch) = .ok () →
      c = true ∧ (∀ b ∈ authenticated.bridgeBlocks,
        b.epoch = trusted.epoch ∨ b.epoch = authenticated.anchorBlock.epoch) ∧
      ∀ b ∈ authenticated.descendantBlocks, b.epoch = authenticated.anchorBlock.epoch := by
    intro c h
    simp only [bind_eq_ok, require_eq_ok, List.all_eq_true, Bool.or_eq_true, beq_iff_eq] at h
    obtain ⟨_, hc, _, hbridge, hdescendants⟩ := h
    exact ⟨hc, hbridge, hdescendants⟩
  simp only [verifyHeaderEpochTransition] at h
  split at h
  · cases h
  split at h
  · rename_i hsame
    obtain ⟨hbrought, hbridge, hdescendants⟩ := hrest h
    refine ⟨.inl hsame, fun ctx hctx => ?_, hbridge, hdescendants⟩
    simpa [hctx] using hbrought
  split at h
  · rename_i hnext
    obtain ⟨hbrought, hbridge, hdescendants⟩ := hrest h
    refine ⟨.inr hnext, fun ctx hctx => ?_, hbridge, hdescendants⟩
    simpa [hctx] using hbrought
  · cases h

/-- The bridge blocks from the trusted block on, and what the next block has to follow. -/
def bridgeContinues : List AuthenticatedBlock → Bytes → UInt64 → Except Err (Bytes × UInt64)
  | [], prevHash, height => .ok (prevHash, height)
  | block :: blocks, prevHash, height => do
    require (block.prevHash == prevHash) .ErrInvalidAcceptedBlock
    require (block.height == height) .ErrInvalidAcceptedBlock
    bridgeContinues blocks block.hash (height + 1)

def verifyBridgeContinuity (authenticated : AuthenticatedHeader)
    (trustedBlock : TrustedBlockState) : Except Err Unit := do
  let (expectedPrevHash, expectedHeight) ← bridgeContinues authenticated.bridgeBlocks
    trustedBlock.blockHash (trustedBlock.height + 1)
  require (authenticated.anchorBlock.prevHash == expectedPrevHash) .ErrInvalidAcceptedBlock
  require (authenticated.anchorBlock.height == expectedHeight) .ErrInvalidAcceptedBlock

/-! ## Metrics -/

def ClientState.poolRegistrationCutoffSlotExclusive (cs : ClientState) : Except Err UInt64 := do
  require (cs.systemStartUnixNs != 0) .ErrInvalidTimestamp
  require (cs.slotLengthNs != 0) .ErrInvalidTimestamp
  if poolRegistrationCutoffUnixNs ≤ cs.systemStartUnixNs then return 0
  else
    let delta := poolRegistrationCutoffUnixNs - cs.systemStartUnixNs
    require (delta ≤ 0xffffffffffffffff - (cs.slotLengthNs - 1)) .ErrInvalidTimestamp
    return (delta + cs.slotLengthNs - 1) / cs.slotLengthNs

def poolRegisteredBeforeCutoff (cutoffSlotExclusive : UInt64)
    (entry : Option StakeDistributionEntry) : Except Err (Bool × UInt64) := do
  let entry ← found entry .ErrInvalidCurrentEpoch
  require (entry.firstRegistrationSlot != 0) .ErrInvalidCurrentEpoch
  return (entry.firstRegistrationSlot < cutoffSlotExclusive, entry.stake)

/-- The pools seen, how many of them count and with how much stake, and the last block. -/
structure Tally where
  seenPools : List Bytes
  pools : UInt64
  stake : UInt64
  prevHash : Bytes
  prevHeight : UInt64

variable [Texts]

def tallyBlock (ctx : EpochContext) (cutoff anchorEpoch : UInt64) (tally : Tally)
    (block : AuthenticatedBlock) : Except Err Tally := do
  require (block.prevHash == tally.prevHash) .ErrInvalidAcceptedBlock
  require (block.height == tally.prevHeight + 1) .ErrInvalidAcceptedBlock
  require (block.epoch == anchorEpoch) .ErrInvalidCurrentEpoch
  let next := { tally with prevHash := block.hash, prevHeight := block.height }
  let poolID := toLower block.slotLeader
  if poolID.isEmpty || tally.seenPools.contains poolID then return next
  else
    let (eligible, stake) ← poolRegisteredBeforeCutoff cutoff
      (entryByPool ctx.stakeDistribution poolID)
    let next := { next with seenPools := poolID :: tally.seenPools }
    return if eligible then { next with pools := tally.pools + 1, stake := tally.stake + stake }
      else next

def minBps (value target : UInt64) : UInt64 :=
  if target = 0 then 10000 else if target ≤ value then 10000 else value * 10000 / target

def computeSecurityScore (depth pools stakeBps : UInt64) : UInt64 :=
  min ((DefaultDepthWeightBps * minBps depth DefaultThresholdDepth +
    DefaultPoolsWeightBps * minBps pools DefaultThresholdUniquePools +
    DefaultStakeWeightBps * minBps stakeBps DefaultThresholdUniqueStakeBps) / 10000) 10000

structure Metrics where
  uniquePools : UInt64
  uniqueStakeBps : UInt64
  score : UInt64
deriving DecidableEq, Repr

def totalStake (ctx : EpochContext) : UInt64 :=
  ctx.stakeDistribution.foldl (fun total entry => total + entry.stake) 0

/-- Sums and products are of 64 bits and wrap around. -/
def ClientState.computeHeaderSecurityMetrics (cs : ClientState) (header : AuthenticatedHeader)
    (ctx : EpochContext) : Except Err Metrics := do
  require (!ctx.stakeDistribution.isEmpty) .ErrInvalidCurrentEpoch
  require (totalStake ctx != 0) .ErrInvalidCurrentEpoch
  let cutoff ← cs.poolRegistrationCutoffSlotExclusive
  let anchor := header.anchorBlock
  let tally ← header.descendantBlocks.foldlM (tallyBlock ctx cutoff anchor.epoch)
    { seenPools := [], pools := 0, stake := 0, prevHash := anchor.hash,
      prevHeight := anchor.height }
  let uniqueStakeBps := min (tally.stake * 10000 / totalStake ctx) 10000
  return { uniquePools := tally.pools, uniqueStakeBps,
           score := computeSecurityScore header.descendantBlocks.length.toUInt64 tally.pools
             uniqueStakeBps }

/-! ## Verifying a header -/

variable [Native]

/-- The trusted block of a header that moves the client on. -/
def trustedForUpdate (store : Store) (header : ProbabilisticHeader) :
    Except Err TrustedBlockState := do
  let cs := store.clientState
  cs.validateCheckpointFields
  let expected := if isZero cs.latestCheckpointHeight then cs.latestHeight
    else cs.latestCheckpointHeight
  require (!isZero expected) .ErrInvalidHeaderHeight
  let (_, height) ← anchorOf header
  require (expected.getD 0 < height) .ErrInvalidHeaderHeight
  require (header.trustedHeight.getD 0 == expected.getD 0) .ErrInvalidHeaderHeight
  latestTrustedBlockState store

def verifyHeaderWithMode (store : Store) (header : ProbabilisticHeader)
    (enforceForwardUpdate : Bool) : Except Err Unit := do
  let cs := store.clientState
  header.ValidateBasic
  let trustedBlock ← if enforceForwardUpdate then trustedForUpdate store header
    else trustedBlockStateAtHeight store header.trustedHeight
  let currentEpochContexts ← cs.normalizedEpochContexts
  let epochContexts ← mergeEpochContexts currentEpochContexts header.newEpochContext
  let authenticated ← cs.authenticateHeaderBlocksWithContexts header epochContexts
  verifyHeaderEpochTransition header trustedBlock authenticated
  verifyBridgeContinuity authenticated trustedBlock
  let ctx ← found (epochContextByEpoch epochContexts authenticated.anchorBlock.epoch)
    .ErrInvalidCurrentEpoch
  require (DefaultThresholdDepth ≤ authenticated.descendantBlocks.length.toUInt64)
    .ErrInvalidProbabilisticScore
  let metrics ← cs.computeHeaderSecurityMetrics authenticated ctx
  require (DefaultThresholdUniquePools ≤ metrics.uniquePools) .ErrInvalidUniquePools
  require (DefaultThresholdUniqueStakeBps ≤ metrics.uniqueStakeBps) .ErrInvalidUniqueStake
  if !header.isCheckpoint then
    let _ ← cs.ExtractIbcStateRootFromHostStateTx header

def verifyHeader (store : Store) (header : ProbabilisticHeader) : Except Err Unit :=
  verifyHeaderWithMode store header true

/-! ## Misbehaviour -/

omit [Native] in
def ClientState.headerEpochContextConflictsWithStored (cs : ClientState)
    (header : ProbabilisticHeader) : Bool :=
  match header.newEpochContext with
  | none => false
  | some ctx =>
    match cs.normalizedEpochContexts with
    | .error _ => false
    | .ok contexts =>
      match epochContextByEpoch contexts ctx.epoch with
      | none => false
      | some stored => !epochContextsEqual stored ctx

omit [Texts] [Native] in
/-- The blocks of a header by their heights; of two at one height the later stays. -/
def collectHeaderBlocksByHeight (header : ProbabilisticHeader) : List (Height × Bytes) :=
  (header.bridgeBlocks ++ header.anchorBlock.toList ++ header.descendantBlocks).foldl
    (fun blocks block =>
      match block.height with
      | none => blocks
      | some height => table.set blocks height block.hash) []

omit [Native] in
def headerConflictsWithStoredConsensus (store : Store) (header : ProbabilisticHeader) : Bool :=
  (collectHeaderBlocksByHeight header).any fun (height, hash) =>
    match store.consensusState height with
    | none => false
    | some consensusState => !equalFold consensusState.acceptedBlockHash hash

omit [Native] in
def CheckForMisbehaviour (store : Store) (header : ProbabilisticHeader) : Bool :=
  headerConflictsWithStoredConsensus store header ||
    store.clientState.headerEpochContextConflictsWithStored header

/-! ## Storing -/

omit [Texts] [Native] in
def ClientState.setLatestCheckpoint (cs : ClientState) (height : Height) (blockHash : Bytes)
    (epoch : UInt64) : ClientState :=
  { cs with latestCheckpointHeight := some height, latestCheckpointBlockHash := blockHash,
            latestCheckpointEpoch := epoch }

omit [Texts] [Native] in
def syncCurrentEpochFields (cs : ClientState) (contexts : List EpochContext)
    (currentEpoch : UInt64) : Except Err ClientState := do
  let ctx ← found (epochContextByEpoch contexts currentEpoch) .ErrInvalidCurrentEpoch
  return { cs with
    currentEpoch
    epochContexts := contexts
    epochStakeDistribution := ctx.stakeDistribution
    epochNonce := ctx.epochNonce
    slotsPerKesPeriod := ctx.slotsPerKesPeriod
    currentEpochStartSlot := ctx.epochStartSlot
    currentEpochEndSlotExclusive := ctx.epochEndSlotExclusive }

omit [Texts] [Native] in
/-- The epochs of the consensus states that are stored. -/
def collectReferencedConsensusEpochs (store : Store) : List UInt64 :=
  store.iterationKeys.filterMap fun key =>
    (store.consensusState key.1).map ConsensusState.acceptedEpoch

omit [Texts] [Native] in
def ClientState.IsExpired (cs : ClientState) (latestTimestamp : UInt64) (now : Int) : Bool :=
  latestTimestamp.toInt64.toInt + cs.trustingPeriod ≤ now

omit [Texts] [Native] in
/-- Only the oldest consensus state is looked at. -/
def pruneOldestConsensusState (ctx : Context) (store : Store) : Except Err Store := do
  match store.iterationKeys with
  | [] => return store
  | (height, _) :: _ =>
    let consensusState ← found (store.consensusState height) .ErrConsensusStateNotFound
    if store.clientState.IsExpired consensusState.timestamp ctx.blockTime then
      return { store with
        consensusStates := table.erase store.consensusStates height
        processedTimes := table.erase store.processedTimes height
        processedHeights := table.erase store.processedHeights height
        iterationKeys := table.erase store.iterationKeys height }
    else return store

omit [Texts] [Native] in
/-- The contexts of epochs that something stored still refers to, with the anchor's as current. -/
def keepContexts (store : Store) (epochContexts : List EpochContext) (epoch : UInt64) :
    Except Err ClientState :=
  syncCurrentEpochFields store.clientState
    (retainEpochContexts epochContexts (epoch :: collectReferencedConsensusEpochs store)) epoch

omit [Texts] [Native] in
def persistCheckpoint (store : Store) (epochContexts : List EpochContext)
    (authenticated : AuthenticatedHeader) : Except Err Store := do
  let anchor := authenticated.anchorBlock
  let cs ← keepContexts store epochContexts anchor.epoch
  return { store with clientState := cs.setLatestCheckpoint anchor.height anchor.hash anchor.epoch }

omit [Texts] [Native] in
def Store.setConsensus (store : Store) (ctx : Context) (height : Height)
    (consensusState : ConsensusState) : Store :=
  { store with
    consensusStates := table.set store.consensusStates height consensusState
    processedTimes := table.set store.processedTimes height (ctx.blockTime.toNat.toUInt64)
    processedHeights := table.set store.processedHeights height ctx.blockHeight
    iterationKeys := table.set store.iterationKeys height ()
    scores := table.set store.scores height consensusState.securityScoreBps
    uniquePools := table.set store.uniquePools height consensusState.uniquePoolsCount
    uniqueStakes := table.set store.uniqueStakes height consensusState.uniqueStakeBps
    acceptedBlockHashes :=
      table.set store.acceptedBlockHashes height consensusState.acceptedBlockHash }

/-- What is stored after a header. An error is where the code panics. -/
def UpdateState (ctx : Context) (store : Store) (header : ProbabilisticHeader) :
    Except Err Store := do
  let cs := store.clientState
  let currentEpochContexts ← cs.normalizedEpochContexts
  let epochContexts ← mergeEpochContexts currentEpochContexts header.newEpochContext
  let authenticated ← cs.authenticateHeaderBlocksWithContexts header epochContexts
  let trustedBlock ← trustedBlockStateAtHeight store header.trustedHeight
  verifyHeaderEpochTransition header trustedBlock authenticated
  let anchor := authenticated.anchorBlock
  let anchorEpochContext ← found (epochContextByEpoch epochContexts anchor.epoch)
    .ErrInvalidCurrentEpoch
  if header.isCheckpoint then persistCheckpoint store epochContexts authenticated
  else
    let (_, height) ← anchorOf header
    let store ← pruneOldestConsensusState ctx store
    let ibcStateRoot ← cs.ExtractIbcStateRootFromHostStateTx header
    let metrics ← cs.computeHeaderSecurityMetrics authenticated anchorEpochContext
    let store := store.setConsensus ctx height
      { timestamp := anchor.timestamp, ibcStateRoot, acceptedBlockHash := anchor.hash,
        acceptedEpoch := anchor.epoch, uniquePoolsCount := metrics.uniquePools,
        uniqueStakeBps := metrics.uniqueStakeBps, securityScoreBps := metrics.score }
    let cs ← keepContexts store epochContexts anchor.epoch
    return { store with
      clientState := { cs with latestHeight := some height }.setLatestCheckpoint height anchor.hash
        anchor.epoch }

/-! ## What a verified header has passed -/

/-- Every check of a header, with the values it was made on. -/
structure Verified (store : Store) (header : ProbabilisticHeader) (trusted : TrustedBlockState)
    (contexts merged : List EpochContext) (authenticated : AuthenticatedHeader)
    (ctx : EpochContext) (metrics : Metrics) : Prop where
  basic : header.ValidateBasic = .ok ()
  trusted_found : trustedForUpdate store header = .ok trusted
  normalized : store.clientState.normalizedEpochContexts = .ok contexts
  merges : mergeEpochContexts contexts header.newEpochContext = .ok merged
  authenticates : store.clientState.authenticateHeaderBlocksWithContexts header merged =
    .ok authenticated
  transition : verifyHeaderEpochTransition header trusted authenticated = .ok ()
  continuity : verifyBridgeContinuity authenticated trusted = .ok ()
  context : epochContextByEpoch merged authenticated.anchorBlock.epoch = some ctx
  depth : DefaultThresholdDepth ≤ authenticated.descendantBlocks.length.toUInt64
  metrics_eq : store.clientState.computeHeaderSecurityMetrics authenticated ctx = .ok metrics
  pools : DefaultThresholdUniquePools ≤ metrics.uniquePools
  stake : DefaultThresholdUniqueStakeBps ≤ metrics.uniqueStakeBps
  root : header.isCheckpoint = false →
    ∃ root, store.clientState.ExtractIbcStateRootFromHostStateTx header = .ok root

theorem verifyHeader_spec {store : Store} {header : ProbabilisticHeader}
    (h : verifyHeader store header = .ok ()) :
    ∃ trusted contexts merged authenticated ctx metrics,
      Verified store header trusted contexts merged authenticated ctx metrics := by
  simp only [verifyHeader, verifyHeaderWithMode, bind_eq_ok, require_eq_ok, found_eq_ok,
    if_true] at h
  obtain ⟨_, hbasic, trusted, htrusted, contexts, hnormalized, merged, hmerges, authenticated,
    hauthenticates, _, htransition, _, hcontinuity, ctx, hcontext, _, hdepth, metrics, hmetrics, _,
    hpools, _, hstake, hroot⟩ := h
  refine ⟨trusted, contexts, merged, authenticated, ctx, metrics, hbasic, htrusted, hnormalized,
    hmerges, hauthenticates, htransition, hcontinuity, hcontext, by simpa using hdepth, hmetrics,
    by simpa using hpools, by simpa using hstake, ?_⟩
  intro hcheckpoint
  simp only [hcheckpoint, Bool.not_false, if_true, bind_eq_ok] at hroot
  obtain ⟨root, hroot, -⟩ := hroot
  exact ⟨root, hroot⟩

end cardano_ibc.probabilistic
