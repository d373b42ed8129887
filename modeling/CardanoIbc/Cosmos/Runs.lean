-- What an update leaves in the store of the Cosmos-side client, and runs of updates: each header is
-- verified, no misbehaviour, and stored.
import CardanoIbc.Cosmos.Time

namespace cardano_ibc.probabilistic

section Updates

variable [Texts] [Native]

/-! ## One update -/

omit [Texts] [Native] in
/-- What is kept: the contexts of the epochs something refers to, with one of them as current. -/
theorem keepContexts_eq_ok {store : Store} {merged : List EpochContext} {epoch : UInt64}
    {cs : ClientState} :
    keepContexts store merged epoch = .ok cs ↔ ∃ ctx,
      epochContextByEpoch (retainEpochContexts merged
        (epoch :: collectReferencedConsensusEpochs store)) epoch = some ctx ∧
      cs = { store.clientState with
        currentEpoch := epoch
        epochContexts := retainEpochContexts merged
          (epoch :: collectReferencedConsensusEpochs store)
        epochStakeDistribution := ctx.stakeDistribution
        epochNonce := ctx.epochNonce
        slotsPerKesPeriod := ctx.slotsPerKesPeriod
        currentEpochStartSlot := ctx.epochStartSlot
        currentEpochEndSlotExclusive := ctx.epochEndSlotExclusive } := by
  simp only [keepContexts, syncCurrentEpochFields, bind_eq_ok, found_eq_ok, pure_eq_ok]
  exact exists_congr fun _ => and_congr_right fun _ => eq_comm

omit [Texts] [Native] in
/-- The context asked for is among those that are kept. -/
theorem byEpoch_retain {merged : List EpochContext} {keep : List UInt64} {epoch : UInt64}
    (hkeep : epoch ∈ keep) :
    epochContextByEpoch (retainEpochContexts merged keep) epoch =
      epochContextByEpoch merged epoch := by
  simp only [epochContextByEpoch, retainEpochContexts, List.find?_filter]
  refine congrArg (merged.find? ·) (funext fun c => ?_)
  by_cases hc : c.epoch = epoch
  · simp [hc, hkeep]
  · simp [hc]

/-- What an update reads before it writes. -/
structure Reads (store : Store) (header : ProbabilisticHeader) (contexts merged : List EpochContext)
    (authenticated : AuthenticatedHeader) (trusted : TrustedBlockState) (ctx : EpochContext) :
    Prop where
  normalized : store.clientState.normalizedEpochContexts = .ok contexts
  merges : mergeEpochContexts contexts header.newEpochContext = .ok merged
  authenticates : store.clientState.authenticateHeaderBlocksWithContexts header merged =
    .ok authenticated
  trusted_found : trustedBlockStateAtHeight store header.trustedHeight = .ok trusted
  transition : verifyHeaderEpochTransition header trusted authenticated = .ok ()
  context : epochContextByEpoch merged authenticated.anchorBlock.epoch = some ctx

omit [Texts] [Native] in
/-- The consensus state of an anchor. -/
def consensusOf (anchor : AuthenticatedBlock) (root : Bytes) (metrics : Metrics) :
    ConsensusState where
  timestamp := anchor.timestamp
  ibcStateRoot := root
  acceptedBlockHash := anchor.hash
  acceptedEpoch := anchor.epoch
  uniquePoolsCount := metrics.uniquePools
  uniqueStakeBps := metrics.uniqueStakeBps
  securityScoreBps := metrics.score

omit [Texts] [Native] in
/-- A checkpoint changes the client state only. -/
def checkpointed (store : Store) (cs : ClientState) (anchor : AuthenticatedBlock) : Store :=
  { store with clientState := cs.setLatestCheckpoint anchor.height anchor.hash anchor.epoch }

omit [Texts] [Native] in
/-- A root-bearing update also stores a consensus state. -/
def advanced (store : Store) (cs : ClientState) (height : Height) (anchor : AuthenticatedBlock) :
    Store :=
  { store with
    clientState := { cs with latestHeight := some height }.setLatestCheckpoint height anchor.hash
      anchor.epoch }

/-- Whether an update is stored, and as what. -/
theorem UpdateState_eq_ok {context : Context} {store store' : Store}
    {header : ProbabilisticHeader} :
    UpdateState context store header = .ok store' ↔
      ∃ contexts merged authenticated trusted ctx,
        Reads store header contexts merged authenticated trusted ctx ∧
        ((header.isCheckpoint = true ∧ ∃ cs,
            keepContexts store merged authenticated.anchorBlock.epoch = .ok cs ∧
            store' = checkpointed store cs authenticated.anchorBlock) ∨
          (header.isCheckpoint = false ∧ ∃ anchor height pruned root metrics cs,
            anchorOf header = .ok (anchor, height) ∧
            pruneOldestConsensusState context store = .ok pruned ∧
            store.clientState.ExtractIbcStateRootFromHostStateTx header = .ok root ∧
            store.clientState.computeHeaderSecurityMetrics authenticated ctx = .ok metrics ∧
            keepContexts (pruned.setConsensus context height
              (consensusOf authenticated.anchorBlock root metrics)) merged
              authenticated.anchorBlock.epoch = .ok cs ∧
            store' = advanced (pruned.setConsensus context height
              (consensusOf authenticated.anchorBlock root metrics)) cs height
              authenticated.anchorBlock)) := by
  constructor
  · intro h
    simp only [UpdateState, bind_eq_ok, found_eq_ok] at h
    obtain ⟨contexts, hnormalized, merged, hmerges, authenticated, hauthenticates, trusted,
      htrusted, _, htransition, ctx, hctx, h⟩ := h
    refine ⟨contexts, merged, authenticated, trusted, ctx,
      ⟨hnormalized, hmerges, hauthenticates, htrusted, htransition, hctx⟩, ?_⟩
    split at h
    · rename_i hcheckpoint
      simp only [persistCheckpoint, bind_eq_ok, pure_eq_ok] at h
      obtain ⟨cs, hcs, rfl⟩ := h
      exact .inl ⟨hcheckpoint, cs, hcs, rfl⟩
    · rename_i hcheckpoint
      simp only [bind_eq_ok, pure_eq_ok, Prod.exists] at h
      obtain ⟨anchor, height, hanchor, pruned, hpruned, root, hroot, metrics, hmetrics, cs, hcs,
        rfl⟩ := h
      exact .inr ⟨by simpa using hcheckpoint, anchor, height, pruned, root, metrics, cs, hanchor,
        hpruned, hroot, hmetrics, hcs, rfl⟩
  · rintro ⟨contexts, merged, authenticated, trusted, ctx, reads, h⟩
    simp only [UpdateState, reads.normalized, reads.merges, reads.authenticates,
      reads.trusted_found, reads.transition, reads.context, bind_eq_ok, found_eq_ok,
      Except.ok.injEq, exists_eq_left', Option.some.injEq]
    rcases h with ⟨hcheckpoint, cs, hcs, rfl⟩ | ⟨hcheckpoint, anchor, height, pruned, root, metrics,
      cs, hanchor, hpruned, hroot, hmetrics, hcs, rfl⟩
    · rw [if_pos hcheckpoint]
      simp only [persistCheckpoint, bind_eq_ok, pure_eq_ok]
      exact ⟨(), trivial, cs, hcs, rfl⟩
    · rw [if_neg (by simp [hcheckpoint])]
      simp only [bind_eq_ok, pure_eq_ok, Prod.exists]
      exact ⟨(), trivial, anchor, height, hanchor, pruned, hpruned, root, hroot, metrics, hmetrics, cs, hcs,
        rfl⟩

/-! ## Runs -/

/-- The updates of a run, the last one first, each with the store it was made on. -/
inductive History (start : Store) : List (Store × ProbabilisticHeader) → Store → Prop
  | start : History start [] start
  | step {past : List (Store × ProbabilisticHeader)} {store store' : Store}
      {header : ProbabilisticHeader} {context : Context} (before : History start past store)
      (verified : verifyHeader store header = .ok ())
      (clean : CheckForMisbehaviour store header = false)
      (stored : UpdateState context store header = .ok store') :
      History start ((store, header) :: past) store'

end Updates

end cardano_ibc.probabilistic
