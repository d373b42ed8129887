-- What the numbers of a header say (update.go, computeHeaderSecurityMetrics): the blocks of an
-- accepted header are one chain, and the pools that are counted are the distinct issuers of the
-- blocks after the anchor that were registered in time.
import CardanoIbc.Cosmos.Time
import Mathlib.Algebra.Order.BigOperators.Group.Finset

namespace cardano_ibc.probabilistic

/-! ## Heights along a header -/

/-- Each block is one above the one before it. -/
def Ascends : UInt64 → List AuthenticatedBlock → Prop
  | _, [] => True
  | height, b :: bs => b.height = height + 1 ∧ Ascends b.height bs

theorem bridgeContinues_ascends {bs rest : List AuthenticatedBlock} {prevHash last : Bytes}
    {height next : UInt64} (h : bridgeContinues bs prevHash (height + 1) = .ok (last, next))
    (hrest : ∀ below, next = below + 1 → Ascends below rest) : Ascends height (bs ++ rest) := by
  induction bs generalizing prevHash height with
  | nil =>
    cases h
    exact hrest height rfl
  | cons b bs ih =>
    simp only [bridgeContinues, bind_eq_ok, require_eq_ok, beq_iff_eq] at h
    obtain ⟨_, -, _, hheight, h⟩ := h
    rw [← hheight] at h
    exact ⟨hheight, ih h⟩

theorem Ascends.height_eq {height : UInt64} {bs rest : List AuthenticatedBlock}
    {b : AuthenticatedBlock} (h : Ascends height (bs ++ b :: rest)) :
    b.height = UInt64.ofNat (height.toNat + bs.length + 1) := by
  induction bs generalizing height with
  | nil =>
    rw [h.1, List.length_nil, Nat.add_zero, UInt64.ofNat_add, UInt64.ofNat_toNat]
    rfl
  | cons c bs ih =>
    rw [ih h.2, h.1, List.length_cons]
    simp only [UInt64.ofNat_add, UInt64.ofNat_toNat]
    ac_rfl

/-! ## The pools that count -/

section Pools

variable [Texts]

/-- The names of the issuers of blocks, without regard to case. -/
def issuersOf (blocks : List AuthenticatedBlock) : Finset Bytes :=
  ((blocks.map fun block => toLower block.slotLeader).filter (· ≠ [])).toFinset

/-- The pool has an entry, and was registered before the slot. -/
def registeredBefore (ctx : EpochContext) (cutoff : UInt64) (pool : Bytes) : Bool :=
  (entryByPool ctx.stakeDistribution pool).any fun entry => entry.firstRegistrationSlot < cutoff

def stakeOf (ctx : EpochContext) (pool : Bytes) : Nat :=
  ((entryByPool ctx.stakeDistribution pool).map fun entry => entry.stake.toNat).getD 0

/-- The distinct issuers that were registered before the slot. -/
def qualified (ctx : EpochContext) (cutoff : UInt64) (blocks : List AuthenticatedBlock) :
    Finset Bytes :=
  (issuersOf blocks).filter fun pool => registeredBefore ctx cutoff pool = true

/-- The stake of these, as an integer. -/
def qualifiedStake (ctx : EpochContext) (cutoff : UInt64) (blocks : List AuthenticatedBlock) :
    Nat :=
  ∑ pool ∈ qualified ctx cutoff blocks, stakeOf ctx pool

theorem issuersOf_snoc (blocks : List AuthenticatedBlock) (block : AuthenticatedBlock) :
    issuersOf (blocks ++ [block]) =
      if toLower block.slotLeader = [] then issuersOf blocks
      else insert (toLower block.slotLeader) (issuersOf blocks) := by
  ext pool
  by_cases hname : toLower block.slotLeader = []
  · simp [issuersOf, hname]
  · simp [issuersOf, hname]

theorem issuersOf_snoc_of_seen {blocks : List AuthenticatedBlock} {block : AuthenticatedBlock}
    (h : toLower block.slotLeader = [] ∨ toLower block.slotLeader ∈ issuersOf blocks) :
    issuersOf (blocks ++ [block]) = issuersOf blocks := by
  rw [issuersOf_snoc]
  split
  · rfl
  · rename_i hname
    exact Finset.insert_eq_of_mem (h.resolve_left hname)

section NewIssuer

variable {ctx : EpochContext} {cutoff : UInt64} {blocks : List AuthenticatedBlock}
  {block : AuthenticatedBlock}

theorem qualified_snoc_of_new (hname : toLower block.slotLeader ≠ []) :
    qualified ctx cutoff (blocks ++ [block]) =
      if registeredBefore ctx cutoff (toLower block.slotLeader) = true then
        insert (toLower block.slotLeader) (qualified ctx cutoff blocks)
      else qualified ctx cutoff blocks := by
  rw [qualified, issuersOf_snoc, if_neg hname, Finset.filter_insert]
  rfl

theorem notMem_qualified (hfresh : toLower block.slotLeader ∉ issuersOf blocks) :
    toLower block.slotLeader ∉ qualified ctx cutoff blocks := fun hin =>
  hfresh (Finset.mem_of_mem_filter _ hin)

theorem qualifiedStake_snoc_of_new (hname : toLower block.slotLeader ≠ [])
    (hfresh : toLower block.slotLeader ∉ issuersOf blocks) :
    qualifiedStake ctx cutoff (blocks ++ [block]) =
      if registeredBefore ctx cutoff (toLower block.slotLeader) = true then
        stakeOf ctx (toLower block.slotLeader) + qualifiedStake ctx cutoff blocks
      else qualifiedStake ctx cutoff blocks := by
  rw [qualifiedStake, qualified_snoc_of_new hname]
  split
  · exact Finset.sum_insert (notMem_qualified hfresh)
  · rfl

end NewIssuer

/-- What has been counted after some blocks. -/
structure Counts (ctx : EpochContext) (cutoff : UInt64) (blocks : List AuthenticatedBlock)
    (tally : Tally) : Prop where
  seen : ∀ pool, pool ∈ tally.seenPools ↔ pool ∈ issuersOf blocks
  pools : tally.pools = UInt64.ofNat (qualified ctx cutoff blocks).card
  stake : tally.stake = UInt64.ofNat (qualifiedStake ctx cutoff blocks)

/-- A block adds the stake of its issuer if the issuer is new and was registered in time. -/
theorem Counts.step {ctx : EpochContext} {cutoff epoch : UInt64}
    {blocks : List AuthenticatedBlock} {block : AuthenticatedBlock} {tally next : Tally}
    (hcounts : Counts ctx cutoff blocks tally)
    (h : tallyBlock ctx cutoff epoch tally block = .ok next) :
    Counts ctx cutoff (blocks ++ [block]) next := by
  simp only [tallyBlock, bind_eq_ok] at h
  obtain ⟨_, -, _, -, _, -, h⟩ := h
  split at h
  · -- the block has no issuer, or one that was seen
    rename_i hold
    simp only [pure_eq_ok] at h
    simp only [Bool.or_eq_true, List.isEmpty_iff, List.contains_iff_mem, hcounts.seen] at hold
    have hsame := issuersOf_snoc_of_seen hold
    subst h
    refine ⟨?_, ?_, ?_⟩
    · intro pool
      rw [hsame]
      exact hcounts.seen pool
    · rw [qualified, hsame]
      exact hcounts.pools
    · rw [qualifiedStake, qualified, hsame]
      exact hcounts.stake
  · rename_i hnew
    simp only [Bool.or_eq_true, List.isEmpty_iff, List.contains_iff_mem, not_or] at hnew
    obtain ⟨hname, hfresh⟩ := hnew
    rw [hcounts.seen] at hfresh
    simp only [poolRegisteredBeforeCutoff, bind_eq_ok, pure_eq_ok, found_eq_ok,
      Prod.exists, Prod.mk.injEq] at h
    obtain ⟨eligible, stake, ⟨entry, hentry, _, -, heligible, rfl⟩, rfl⟩ := h
    have hseen : ∀ pool, pool ∈ toLower block.slotLeader :: tally.seenPools ↔
        pool ∈ issuersOf (blocks ++ [block]) := by
      intro pool
      rw [issuersOf_snoc, if_neg hname, Finset.mem_insert, List.mem_cons, hcounts.seen]
    have hregistered : registeredBefore ctx cutoff (toLower block.slotLeader) = eligible := by
      rw [registeredBefore, hentry]
      exact heligible
    have hstake : stakeOf ctx (toLower block.slotLeader) = entry.stake.toNat := by
      rw [stakeOf, hentry]
      rfl
    cases eligible with
    | true =>
      refine ⟨hseen, ?_, ?_⟩
      · rw [qualified_snoc_of_new hname, if_pos hregistered,
          Finset.card_insert_of_notMem (notMem_qualified hfresh), UInt64.ofNat_add,
          ← hcounts.pools]
        rfl
      · rw [qualifiedStake_snoc_of_new hname hfresh, if_pos hregistered, UInt64.ofNat_add, hstake,
          UInt64.ofNat_toNat, ← hcounts.stake]
        exact UInt64.add_comm _ _
    | false =>
      have hnot : ¬ registeredBefore ctx cutoff (toLower block.slotLeader) = true := by
        simp [hregistered]
      refine ⟨hseen, ?_, ?_⟩
      · rw [qualified_snoc_of_new hname, if_neg hnot]
        exact hcounts.pools
      · rw [qualifiedStake_snoc_of_new hname hfresh, if_neg hnot]
        exact hcounts.stake

theorem Counts.run {ctx : EpochContext} {cutoff epoch : UInt64}
    {done blocks : List AuthenticatedBlock} {tally out : Tally}
    (hcounts : Counts ctx cutoff done tally)
    (h : blocks.foldlM (tallyBlock ctx cutoff epoch) tally = .ok out) :
    Counts ctx cutoff (done ++ blocks) out := by
  induction blocks generalizing done tally with
  | nil =>
    cases h
    rw [List.append_nil]
    exact hcounts
  | cons block blocks ih =>
    simp only [List.foldlM_cons, bind_eq_ok] at h
    obtain ⟨next, hnext, h⟩ := h
    rw [List.append_cons]
    exact ih (hcounts.step hnext) h

theorem Counts.start (ctx : EpochContext) (cutoff : UInt64) (prevHash : Bytes)
    (prevHeight : UInt64) : Counts ctx cutoff [] ⟨[], 0, 0, prevHash, prevHeight⟩ where
  seen := by simp [issuersOf]
  pools := by simp [qualified, issuersOf]
  stake := by simp [qualifiedStake, qualified, issuersOf]

theorem tallyBlock_ascends {ctx : EpochContext} {cutoff epoch : UInt64} {tally out : Tally}
    {bs : List AuthenticatedBlock} (h : bs.foldlM (tallyBlock ctx cutoff epoch) tally = .ok out) :
    Ascends tally.prevHeight bs := by
  induction bs generalizing tally with
  | nil => trivial
  | cons b bs ih =>
    simp only [List.foldlM_cons, bind_eq_ok] at h
    obtain ⟨next, hnext, h⟩ := h
    obtain ⟨⟨-, hheight⟩, -, hlast⟩ := tallyBlock_follows hnext
    exact ⟨hheight, hlast ▸ ih h⟩

/-- The share of the stake in hundredths of a percent, with sums and products of 64 bits. -/
def shareBps (stake total : UInt64) : UInt64 := min (stake * 10000 / total) 10000

/-- What the metrics of a header are, when there are any. -/
theorem computeHeaderSecurityMetrics_counts {cs : ClientState} {header : AuthenticatedHeader}
    {ctx : EpochContext} {metrics : Metrics}
    (h : cs.computeHeaderSecurityMetrics header ctx = .ok metrics) :
    ∃ cutoff, cs.poolRegistrationCutoffSlotExclusive = .ok cutoff ∧ totalStake ctx ≠ 0 ∧
      metrics.uniquePools = UInt64.ofNat (qualified ctx cutoff header.descendantBlocks).card ∧
      metrics.uniqueStakeBps = shareBps
        (UInt64.ofNat (qualifiedStake ctx cutoff header.descendantBlocks)) (totalStake ctx) ∧
      metrics.score = computeSecurityScore header.descendantBlocks.length.toUInt64
        metrics.uniquePools metrics.uniqueStakeBps := by
  simp only [ClientState.computeHeaderSecurityMetrics, bind_eq_ok, require_eq_ok, pure_eq_ok,
    bne_iff_ne] at h
  obtain ⟨_, -, _, htotal, cutoff, hcutoff, tally, htally, rfl⟩ := h
  have hcounts := (Counts.start ctx cutoff _ _).run htally
  rw [List.nil_append] at hcounts
  refine ⟨cutoff, hcutoff, htotal, hcounts.pools, ?_, rfl⟩
  rw [← hcounts.stake]
  rfl

end Pools

/-! ## The chain of a verified header -/

section Chain

variable [Texts] [Native]

omit [Native] in
/-- Bridge, anchor and descendants that are checked ascend from the trusted block. -/
theorem ascends_of_checks {cs : ClientState} {trusted : TrustedBlockState}
    {authenticated : AuthenticatedHeader} {ctx : EpochContext} {metrics : Metrics}
    (hcontinuity : verifyBridgeContinuity authenticated trusted = .ok ())
    (hmetrics : cs.computeHeaderSecurityMetrics authenticated ctx = .ok metrics) :
    Ascends trusted.height authenticated.path := by
  simp only [ClientState.computeHeaderSecurityMetrics, bind_eq_ok] at hmetrics
  obtain ⟨_, -, _, -, cutoff, -, tally, htally, -⟩ := hmetrics
  simp only [verifyBridgeContinuity, bind_eq_ok, require_eq_ok, beq_iff_eq, Prod.exists]
    at hcontinuity
  obtain ⟨last, next, hbridge, _, -, hanchor⟩ := hcontinuity
  refine bridgeContinues_ascends hbridge fun below hbelow => ?_
  exact ⟨hanchor.trans hbelow, tallyBlock_ascends htally⟩

theorem Verified.ascends {store : Store} {header : ProbabilisticHeader}
    {trusted : TrustedBlockState} {contexts merged : List EpochContext}
    {authenticated : AuthenticatedHeader} {ctx : EpochContext} {metrics : Metrics}
    (v : Verified store header trusted contexts merged authenticated ctx metrics) :
    Ascends trusted.height authenticated.path :=
  ascends_of_checks v.continuity v.metrics_eq

omit [Native] in
theorem trustedForUpdate_below {store : Store} {header : ProbabilisticHeader}
    {trusted : TrustedBlockState} (h : trustedForUpdate store header = .ok trusted) :
    ∃ anchor height, anchorOf header = .ok (anchor, height) ∧ trusted.height < height := by
  have hat : ∀ {expected}, trustedBlockStateAtHeight store expected = .ok trusted →
      trusted.height = expected.getD 0 := by
    intro expected h
    simp only [trustedBlockStateAtHeight, bind_eq_ok] at h
    obtain ⟨_, -, h⟩ := h
    split at h
    · split at h
      · simp only [bind_eq_ok, pure_eq_ok] at h
        obtain ⟨_, -, _, -, rfl⟩ := h
        rfl
      · simp only [pure_eq_ok] at h
        rw [← h]
    · simp only [bind_eq_ok, pure_eq_ok] at h
      obtain ⟨_, -, rfl⟩ := h
      rfl
  simp only [trustedForUpdate, latestTrustedBlockState, bind_eq_ok, require_eq_ok, Prod.exists,
    decide_eq_true_eq] at h
  obtain ⟨_, -, _, -, anchor, height, hanchor, _, hlater, _, -, _, -, h⟩ := h
  refine ⟨anchor, height, hanchor, ?_⟩
  split at h
  · rename_i hzero
    rw [if_pos hzero] at hlater
    rw [hat h]
    exact hlater
  · rename_i hset
    rw [if_neg hset] at hlater
    rw [hat h]
    exact hlater

omit [Texts] [Native] in
/-- Heights do not wrap around below one that is greater than the first. -/
theorem toNat_of_above {low high : UInt64} {n : Nat} (h : high = UInt64.ofNat (low.toNat + n + 1))
    (hlt : low < high) (hn : n < 2 ^ 63) : high.toNat = low.toNat + n + 1 := by
  rw [UInt64.lt_iff_toNat_lt] at hlt
  have hlow := low.toNat_lt
  have hmod : high.toNat = (low.toNat + n + 1) % 2 ^ 64 := by rw [h, UInt64.toNat_ofNat']
  omega

/-- A header that is accepted shows one chain from the trusted block over the bridge and the anchor
to the last descendant, of which there are 24 or more. It passes into the next epoch at most once
and not after the anchor, and the pools it is said to have are the distinct issuers of the
descendants, without regard to case, that were registered before the cutoff. -/
theorem accepted_headers_show_one_chain {store : Store} {header : ProbabilisticHeader}
    (h : verifyHeader store header = .ok ()) :
    ∃ trusted merged authenticated ctx cutoff metrics,
      trustedForUpdate store header = .ok trusted ∧
      store.clientState.authenticateHeaderBlocksWithContexts header merged = .ok authenticated ∧
      Linked trusted.blockHash authenticated.path ∧ Ascends trusted.height authenticated.path ∧
      authenticated.anchorBlock.height =
        UInt64.ofNat (trusted.height.toNat + authenticated.bridgeBlocks.length + 1) ∧
      (authenticated.bridgeBlocks.length < 2 ^ 63 → authenticated.anchorBlock.height.toNat =
        trusted.height.toNat + authenticated.bridgeBlocks.length + 1) ∧
      24 ≤ authenticated.descendantBlocks.length ∧
      (authenticated.anchorBlock.epoch = trusted.epoch ∨
        authenticated.anchorBlock.epoch.toNat = trusted.epoch.toNat + 1) ∧
      (∀ b ∈ authenticated.bridgeBlocks,
        b.epoch = trusted.epoch ∨ b.epoch = authenticated.anchorBlock.epoch) ∧
      (∀ b ∈ authenticated.descendantBlocks, b.epoch = authenticated.anchorBlock.epoch) ∧
      epochContextByEpoch merged authenticated.anchorBlock.epoch = some ctx ∧
      store.clientState.poolRegistrationCutoffSlotExclusive = .ok cutoff ∧
      store.clientState.computeHeaderSecurityMetrics authenticated ctx = .ok metrics ∧
      metrics.uniquePools =
        UInt64.ofNat (qualified ctx cutoff authenticated.descendantBlocks).card := by
  obtain ⟨trusted, contexts, merged, authenticated, ctx, metrics, v⟩ := verifyHeader_spec h
  obtain ⟨cutoff, hcutoff, -, hpools, -⟩ := computeHeaderSecurityMetrics_counts v.metrics_eq
  have htransition := verifyHeaderEpochTransition_spec v.transition
  have hheight := v.ascends.height_eq
  have habove : trusted.height < authenticated.anchorBlock.height := by
    obtain ⟨-, _, hanchor⟩ := authenticateHeaderBlocksWithContexts_spec v.authenticates
    obtain ⟨_, _, hanchor', hlt⟩ := trustedForUpdate_below v.trusted_found
    rw [hanchor] at hanchor'
    cases hanchor'
    exact hlt
  have hdepth : 24 ≤ authenticated.descendantBlocks.length := by
    have hdepth := UInt64.le_iff_toNat_le.mp v.depth
    rw [Nat.toUInt64_eq, UInt64.toNat_ofNat'] at hdepth
    exact Nat.le_trans hdepth (Nat.mod_le _ _)
  have hepoch : authenticated.anchorBlock.epoch = trusted.epoch ∨
      authenticated.anchorBlock.epoch.toNat = trusted.epoch.toNat + 1 := by
    refine htransition.anchor.imp_right fun hnext => ?_
    have hnot : ¬ authenticated.anchorBlock.epoch < trusted.epoch := by
      intro hlt
      have htransition := v.transition
      simp only [verifyHeaderEpochTransition, if_pos hlt] at htransition
      cases htransition
    rw [hnext, UInt64.lt_iff_toNat_lt, UInt64.toNat_add] at hnot
    rw [hnext, UInt64.toNat_add]
    have hsmall := trusted.epoch.toNat_lt
    have hone : (1 : UInt64).toNat = 1 := rfl
    rw [hone] at hnot ⊢
    omega
  exact ⟨trusted, merged, authenticated, ctx, cutoff, metrics, v.trusted_found, v.authenticates,
    v.linked, v.ascends, hheight, toNat_of_above hheight habove, hdepth, hepoch,
    htransition.bridge, htransition.descendants, v.context, hcutoff, v.metrics_eq, hpools⟩

end Chain

section Accepted

local instance metricsTexts : Texts := asciiTexts

local instance metricsNative : Native := symbolicNative

theorem an_honest_header_shows_one_chain :
    ∃ trusted merged authenticated,
      trustedForUpdate (timedStore 2000) honestHeader = .ok trusted ∧
      (timedStore 2000).clientState.authenticateHeaderBlocksWithContexts honestHeader merged =
        .ok authenticated ∧
      Linked trusted.blockHash authenticated.path ∧ Ascends trusted.height authenticated.path ∧
      24 ≤ authenticated.descendantBlocks.length := by
  obtain ⟨trusted, merged, authenticated, _, _, _, htrusted, hauthenticated, hlinked, hascends,
    -, -, hdepth, -⟩ := accepted_headers_show_one_chain honestHeader_taken.1
  exact ⟨trusted, merged, authenticated, htrusted, hauthenticated, hlinked, hascends, hdepth⟩

end Accepted

/-! ## Stake of 64 bits -/

section Stake

/-- The stake of an epoch, as an integer. -/
def activeStake (ctx : EpochContext) : Nat :=
  (ctx.stakeDistribution.map fun entry => entry.stake.toNat).sum

theorem totalStake_eq_activeStake (ctx : EpochContext) :
    totalStake ctx = UInt64.ofNat (activeStake ctx) := by
  have hfold : ∀ (entries : List StakeDistributionEntry) (start : UInt64),
      entries.foldl (fun total entry => total + entry.stake) start =
        start + UInt64.ofNat (entries.map fun entry => entry.stake.toNat).sum := by
    intro entries
    induction entries with
    | nil => simp
    | cons entry entries ih =>
      intro start
      rw [List.foldl_cons, ih, List.map_cons, List.sum_cons, UInt64.ofNat_add, UInt64.ofNat_toNat,
        UInt64.add_assoc]
  rw [totalStake, hfold, UInt64.zero_add]
  rfl

theorem toNat_min_10000 (x : UInt64) : (min x 10000).toNat = min x.toNat 10000 := by
  have hten : (10000 : UInt64).toNat = 10000 := rfl
  by_cases hle : x ≤ 10000
  · have hle' := UInt64.le_iff_toNat_le.mp hle
    rw [show min x 10000 = x from if_pos hle]
    omega
  · have hle' := UInt64.lt_iff_toNat_lt.mp (UInt64.not_le.mp hle)
    rw [show min x 10000 = 10000 from if_neg hle]
    omega

theorem toNat_shareBps (stake total : Nat) :
    (shareBps (UInt64.ofNat stake) (UInt64.ofNat total)).toNat =
      min (10000 * stake % 2 ^ 64 / (total % 2 ^ 64)) 10000 := by
  have hquotient : (UInt64.ofNat stake * 10000 / UInt64.ofNat total).toNat =
      10000 * stake % 2 ^ 64 / (total % 2 ^ 64) := by
    rw [UInt64.toNat_div, UInt64.toNat_mul, UInt64.toNat_ofNat', UInt64.toNat_ofNat',
      Nat.mul_comm 10000 stake]
    have hten : (10000 : UInt64).toNat = 10000 := rfl
    rw [hten, Nat.mod_mul_mod]
  rw [shareBps, toNat_min_10000, hquotient]

/-- With a total of 64 bits the share is exact unless the product wraps around, and then it is too
small. -/
theorem share_exact_iff {stake total : Nat} (hpositive : 0 < total) (hfits : total < 2 ^ 64)
    (hle : stake ≤ total) :
    min (10000 * stake % 2 ^ 64 / (total % 2 ^ 64)) 10000 = 10000 * stake / total ↔
      10000 * stake < 2 ^ 64 := by
  rw [Nat.mod_eq_of_lt hfits]
  constructor
  · intro h
    by_contra hwraps
    have hless : 10000 * stake % 2 ^ 64 / total < 10000 * stake / total := by
      have hcut : 10000 * stake % 2 ^ 64 ≤ 10000 * stake - total := by omega
      have hstep : (10000 * stake - total) / total + 1 = 10000 * stake / total := by
        exact (Nat.div_eq_sub_div hpositive (by omega)).symm
      calc 10000 * stake % 2 ^ 64 / total
          ≤ (10000 * stake - total) / total := Nat.div_le_div_right hcut
        _ < 10000 * stake / total := by omega
    omega
  · intro hsmall
    rw [Nat.mod_eq_of_lt hsmall, Nat.min_eq_left]
    exact Nat.div_le_of_le_mul (by nlinarith)

/-- A header that reaches all the thresholds has all of the score. -/
theorem computeSecurityScore_of_thresholds {depth pools stakeBps : UInt64}
    (hdepth : DefaultThresholdDepth ≤ depth) (hpools : DefaultThresholdUniquePools ≤ pools)
    (hstake : DefaultThresholdUniqueStakeBps ≤ stakeBps) :
    computeSecurityScore depth pools stakeBps = 10000 := by
  have hfull : ∀ {value target : UInt64}, target ≤ value → minBps value target = 10000 := by
    intro value target hle
    rw [minBps, if_pos hle, ite_self]
  rw [computeSecurityScore, hfull hdepth, hfull hpools, hfull hstake]
  rfl

variable [Texts]

/-- Names stand for different entries, so their stake is part of the whole. -/
theorem sum_find_le (entries : List StakeDistributionEntry) (pools : Finset Bytes) :
    ∑ pool ∈ pools, ((entries.find? fun entry => toLower entry.poolId == pool).map
      fun entry => entry.stake.toNat).getD 0 ≤
      (entries.map fun entry => entry.stake.toNat).sum := by
  induction entries generalizing pools with
  | nil => simp
  | cons entry entries ih =>
    rw [List.map_cons, List.sum_cons]
    have hrest := ih (pools.erase (toLower entry.poolId))
    have herase : ∑ pool ∈ pools.erase (toLower entry.poolId),
        (((entry :: entries).find? fun entry => toLower entry.poolId == pool).map
          fun entry => entry.stake.toNat).getD 0 =
        ∑ pool ∈ pools.erase (toLower entry.poolId),
          ((entries.find? fun entry => toLower entry.poolId == pool).map
            fun entry => entry.stake.toNat).getD 0 := by
      refine Finset.sum_congr rfl fun pool hpool => ?_
      have hne : (toLower entry.poolId == pool) = false := by
        rw [beq_eq_false_iff_ne]
        exact (Finset.ne_of_mem_erase hpool).symm
      rw [List.find?_cons_of_neg (by simp [hne])]
    by_cases hin : toLower entry.poolId ∈ pools
    · rw [← Finset.add_sum_erase _ _ hin, herase, List.find?_cons_of_pos (by simp)]
      exact Nat.add_le_add_left hrest _
    · rw [Finset.erase_eq_of_notMem hin] at hrest herase
      rw [herase]
      exact Nat.le_trans hrest (Nat.le_add_left _ _)

theorem qualifiedStake_le (ctx : EpochContext) (cutoff : UInt64)
    (blocks : List AuthenticatedBlock) : qualifiedStake ctx cutoff blocks ≤ activeStake ctx := by
  have hle := sum_find_le ctx.stakeDistribution.reverse (qualified ctx cutoff blocks)
  rw [List.map_reverse, List.sum_reverse] at hle
  exact hle

theorem qualifiedStake_take_le (ctx : EpochContext) (cutoff : UInt64) {m n : Nat} (hle : m ≤ n)
    (blocks : List AuthenticatedBlock) :
    qualifiedStake ctx cutoff (blocks.take m) ≤ qualifiedStake ctx cutoff (blocks.take n) := by
  refine Finset.sum_le_sum_of_subset (Finset.filter_subset_filter _ ?_)
  intro pool hpool
  have hsub : blocks.take m ⊆ blocks.take n := (List.take_prefix_take_left hle).subset
  simp only [issuersOf, List.mem_toFinset, List.mem_filter, List.mem_map] at hpool ⊢
  obtain ⟨⟨block, hblock, hname⟩, hne⟩ := hpool
  exact ⟨⟨block, hsub hblock, hname⟩, hne⟩

/-- The header with its first descendants only. -/
def AuthenticatedHeader.upTo (header : AuthenticatedHeader) (n : Nat) : AuthenticatedHeader :=
  { header with descendantBlocks := header.descendantBlocks.take n }

theorem computeHeaderSecurityMetrics_upTo {cs : ClientState} {header : AuthenticatedHeader}
    {ctx : EpochContext} {metrics : Metrics}
    (h : cs.computeHeaderSecurityMetrics header ctx = .ok metrics) (n : Nat) :
    ∃ metrics', cs.computeHeaderSecurityMetrics (header.upTo n) ctx = .ok metrics' := by
  simp only [ClientState.computeHeaderSecurityMetrics, bind_eq_ok, require_eq_ok] at h ⊢
  obtain ⟨_, hentries, _, htotal, cutoff, hcutoff, tally, htally, -⟩ := h
  rw [← List.take_append_drop n header.descendantBlocks, List.foldlM_append, bind_eq_ok] at htally
  obtain ⟨before, hbefore, -⟩ := htally
  exact ⟨_, (), hentries, (), htotal, cutoff, hcutoff, before, hbefore, rfl⟩

/-- The stake metrics of a header and of the headers that end earlier: the share is that of the
integers rounded down, a block more never takes from it, and whoever reaches the thresholds has all
of the score. -/
structure Exact (cs : ClientState) (ctx : EpochContext) (header : AuthenticatedHeader) : Prop where
  share : ∀ n cutoff metrics, cs.poolRegistrationCutoffSlotExclusive = .ok cutoff →
    cs.computeHeaderSecurityMetrics (header.upTo n) ctx = .ok metrics →
    metrics.uniqueStakeBps.toNat =
      10000 * qualifiedStake ctx cutoff (header.upTo n).descendantBlocks / activeStake ctx
  grows : ∀ m n metrics metrics', m ≤ n →
    cs.computeHeaderSecurityMetrics (header.upTo m) ctx = .ok metrics →
    cs.computeHeaderSecurityMetrics (header.upTo n) ctx = .ok metrics' →
    metrics.uniqueStakeBps ≤ metrics'.uniqueStakeBps
  score : ∀ n metrics, cs.computeHeaderSecurityMetrics (header.upTo n) ctx = .ok metrics →
    DefaultThresholdDepth ≤ (header.upTo n).descendantBlocks.length.toUInt64 →
    DefaultThresholdUniquePools ≤ metrics.uniquePools →
    DefaultThresholdUniqueStakeBps ≤ metrics.uniqueStakeBps → metrics.score = 10000

/-- If the share is exact for every part of a header, so is the rest. -/
theorem Exact.of_share {cs : ClientState} {ctx : EpochContext} {header : AuthenticatedHeader}
    (h : ∀ n cutoff metrics, cs.poolRegistrationCutoffSlotExclusive = .ok cutoff →
      cs.computeHeaderSecurityMetrics (header.upTo n) ctx = .ok metrics →
      metrics.uniqueStakeBps.toNat =
        10000 * qualifiedStake ctx cutoff (header.upTo n).descendantBlocks / activeStake ctx) :
    Exact cs ctx header := by
  refine ⟨h, ?_, ?_⟩
  · intro m n metrics metrics' hle hmetrics hmetrics'
    obtain ⟨cutoff, hcutoff, -⟩ := computeHeaderSecurityMetrics_counts hmetrics
    rw [UInt64.le_iff_toNat_le, h m cutoff metrics hcutoff hmetrics,
      h n cutoff metrics' hcutoff hmetrics']
    exact Nat.div_le_div_right (Nat.mul_le_mul_left _
      (qualifiedStake_take_le ctx cutoff hle header.descendantBlocks))
  · intro n metrics hmetrics hdepth hpools hstake
    obtain ⟨_, -, -, -, -, hscore⟩ := computeHeaderSecurityMetrics_counts hmetrics
    rw [hscore]
    exact computeSecurityScore_of_thresholds hdepth hpools hstake

/-- The metrics of a header are exact if and only if no sum or product of stake wraps around at 64
bits, or the sum of all stake does and the quotients of what is left over happen to be those of the
integers. -/
theorem stake_metrics_exact_iff {cs : ClientState} {ctx : EpochContext}
    {header : AuthenticatedHeader} {cutoff : UInt64} {metrics : Metrics}
    (hcutoff : cs.poolRegistrationCutoffSlotExclusive = .ok cutoff)
    (hmetrics : cs.computeHeaderSecurityMetrics header ctx = .ok metrics) :
    Exact cs ctx header ↔
      activeStake ctx < 2 ^ 64 ∧
          10000 * qualifiedStake ctx cutoff header.descendantBlocks < 2 ^ 64 ∨
        2 ^ 64 ≤ activeStake ctx ∧ ∀ n,
          min (10000 * qualifiedStake ctx cutoff (header.descendantBlocks.take n) % 2 ^ 64 /
              (activeStake ctx % 2 ^ 64)) 10000 =
            10000 * qualifiedStake ctx cutoff (header.descendantBlocks.take n) /
              activeStake ctx := by
  have hreads : ∀ {n metrics'}, cs.computeHeaderSecurityMetrics (header.upTo n) ctx = .ok metrics' →
      metrics'.uniqueStakeBps.toNat =
        min (10000 * qualifiedStake ctx cutoff (header.descendantBlocks.take n) % 2 ^ 64 /
          (activeStake ctx % 2 ^ 64)) 10000 := by
    intro n metrics' h
    obtain ⟨cutoff', hcutoff', -, -, hshare, -⟩ := computeHeaderSecurityMetrics_counts h
    rw [hcutoff, Except.ok.injEq] at hcutoff'
    rw [hshare, totalStake_eq_activeStake, toNat_shareBps, ← hcutoff']
    rfl
  have hshares : Exact cs ctx header ↔ ∀ n,
      min (10000 * qualifiedStake ctx cutoff (header.descendantBlocks.take n) % 2 ^ 64 /
          (activeStake ctx % 2 ^ 64)) 10000 =
        10000 * qualifiedStake ctx cutoff (header.descendantBlocks.take n) / activeStake ctx := by
    constructor
    · intro hexact n
      obtain ⟨metrics', hmetrics'⟩ := computeHeaderSecurityMetrics_upTo hmetrics n
      rw [← hreads hmetrics']
      exact hexact.share n cutoff metrics' hcutoff hmetrics'
    · intro hall
      refine Exact.of_share fun n cutoff' metrics' hcutoff' hmetrics' => ?_
      rw [hcutoff, Except.ok.injEq] at hcutoff'
      rw [hreads hmetrics', ← hcutoff']
      exact hall n
  rw [hshares]
  by_cases hfits : activeStake ctx < 2 ^ 64
  · have hpositive : 0 < activeStake ctx := by
      obtain ⟨_, -, htotal, -⟩ := computeHeaderSecurityMetrics_counts hmetrics
      refine Nat.pos_of_ne_zero fun hzero => htotal ?_
      rw [totalStake_eq_activeStake, hzero]
      rfl
    have hiff := fun n => share_exact_iff hpositive hfits
      (qualifiedStake_le ctx cutoff (header.descendantBlocks.take n))
    constructor
    · intro hall
      refine .inl ⟨hfits, ?_⟩
      have hlast := (hiff header.descendantBlocks.length).mp (hall _)
      rw [List.take_length] at hlast
      exact hlast
    · rintro (⟨-, hsmall⟩ | ⟨hlarge, -⟩) n
      · refine (hiff n).mpr (Nat.lt_of_le_of_lt (Nat.mul_le_mul_left _ ?_) hsmall)
        have hle := qualifiedStake_take_le ctx cutoff
          (Nat.le_max_left n header.descendantBlocks.length) header.descendantBlocks
        rw [List.take_of_length_le (Nat.le_max_right _ _)] at hle
        exact hle
      · omega
  · constructor
    · intro hall
      exact .inr ⟨Nat.le_of_not_lt hfits, hall⟩
    · rintro (⟨hfits', -⟩ | ⟨-, hall⟩)
      · exact absurd hfits' hfits
      · exact hall

end Stake

section Samples

local instance stakeTexts : Texts := asciiTexts

/-- An epoch with two pools of these stakes. -/
def stakedContext (first second : UInt64) : EpochContext :=
  { samplePools 11 with
    stakeDistribution :=
      [{ samplePool 0 with stake := first }, { samplePool 1 with stake := second }] }

/-- A block of each of the two pools after the anchor. -/
def stakedHeader : AuthenticatedHeader :=
  let block (n : UInt64) (hash prevHash leader : Bytes) : AuthenticatedBlock :=
    { height := 101 + n, slot := 2500 + n, hash, prevHash, epoch := 11,
      timestamp := 1506205591000000000 + n * 1000000000, slotLeader := leader }
  { anchorBlock := block 0 (utf8 "a") (utf8 "trusted") (samplePool 0).poolId
    bridgeBlocks := []
    descendantBlocks := [block 1 (utf8 "b") (utf8 "a") (samplePool 0).poolId,
      block 2 (utf8 "c") (utf8 "b") (samplePool 1).poolId] }

/-- What the client says the share of the first blocks is. -/
def shareUpTo (ctx : EpochContext) (n : Nat) : Option UInt64 :=
  (timedClient.computeHeaderSecurityMetrics (stakedHeader.upTo n) ctx).toOption.map
    Metrics.uniqueStakeBps

theorem small_stakes_are_exact : Exact timedClient (stakedContext 300 700) stakedHeader :=
  (stake_metrics_exact_iff (show _ = Except.ok 261022509 by decide +kernel)
    (show _ = Except.ok (Metrics.mk 2 10000 6966) by decide +kernel)).mpr
    (.inl (by decide +kernel))

/-- Two pools have all the stake, 1844674407370956. The first block shows 9999 parts of 10000, and
the second, after which it should be all, brings the product over 64 bits and the share to none. -/
theorem a_block_more_takes_the_share_away :
    validateEpochContext (stakedContext 1844674407370955 1) = .ok () ∧
      activeStake (stakedContext 1844674407370955 1) = 1844674407370956 ∧
      (∃ cutoff, timedClient.poolRegistrationCutoffSlotExclusive = .ok cutoff ∧
        qualifiedStake (stakedContext 1844674407370955 1) cutoff stakedHeader.descendantBlocks =
          1844674407370956) ∧
      shareUpTo (stakedContext 1844674407370955 1) 1 = some 9999 ∧
      shareUpTo (stakedContext 1844674407370955 1) 2 = some 0 := by
  refine ⟨by decide +kernel, by decide +kernel, ⟨261022509, by decide +kernel, by decide +kernel⟩,
    by decide +kernel, by decide +kernel⟩

end Samples

end cardano_ibc.probabilistic
