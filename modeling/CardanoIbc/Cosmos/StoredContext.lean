-- What becomes of the context the Cosmos-side client has stored for an epoch when a header brings
-- one for the same epoch (epoch_context.go, update.go): the header's takes its place.
import CardanoIbc.Cosmos.Rollover

namespace cardano_ibc.probabilistic

section Law

variable [Texts]

/-! ## What the client reads of a context -/

/-- The stake, the key and the first registration of a pool. -/
def poolFields (ctx : EpochContext) (poolKey : Bytes) : Option (UInt64 × Bytes × UInt64) :=
  (entryByPool ctx.stakeDistribution poolKey).map fun entry =>
    (entry.stake, entry.vrfKeyHash, entry.firstRegistrationSlot)

/-- Every field the client reads is the same in both contexts, pool by pool. -/
structure Unchanged (stored ctx : EpochContext) : Prop where
  epoch : stored.epoch = ctx.epoch
  nonce : stored.epochNonce = ctx.epochNonce
  kes : stored.slotsPerKesPeriod = ctx.slotsPerKesPeriod
  start : stored.epochStartSlot = ctx.epochStartSlot
  stop : stored.epochEndSlotExclusive = ctx.epochEndSlotExclusive
  pools : ∀ poolKey, poolFields stored poolKey = poolFields ctx poolKey

/-- The pools of both contexts were first registered in the same slots. -/
def SameRegistrations (stored ctx : EpochContext) : Prop :=
  ∀ s ∈ stored.stakeDistribution, ∀ entry ∈ ctx.stakeDistribution,
    toLower s.poolId = toLower entry.poolId →
      s.firstRegistrationSlot = entry.firstRegistrationSlot

instance (stored ctx : EpochContext) : Decidable (SameRegistrations stored ctx) :=
  inferInstanceAs (Decidable (∀ s ∈ stored.stakeDistribution, ∀ entry ∈ ctx.stakeDistribution,
    toLower s.poolId = toLower entry.poolId →
      s.firstRegistrationSlot = entry.firstRegistrationSlot))

theorem entryByPool_of_mem {entries : List StakeDistributionEntry}
    (hnodup : (entries.map fun e => toLower e.poolId).Nodup) {entry : StakeDistributionEntry}
    (h : entry ∈ entries) : entryByPool entries (toLower entry.poolId) = some entry := by
  cases hfound : entryByPool entries (toLower entry.poolId) with
  | none =>
    have hnone := List.find?_eq_none.mp hfound entry (List.mem_reverse.mpr h)
    simp at hnone
  | some found =>
    obtain ⟨hmem, hname⟩ := entryByPool_spec hfound
    rw [List.inj_on_of_nodup_map hnodup hmem h hname]

theorem entryByPool_eq_none {entries : List StakeDistributionEntry} {key : Bytes} :
    entryByPool entries key = none ↔ key ∉ entries.map fun e => toLower e.poolId := by
  simp [entryByPool, List.find?_eq_none]

/-- Contexts the client takes for equal have the same pools. -/
theorem perm_of_equal {stored ctx : EpochContext} (hstored : validateEpochContext stored = .ok ())
    (hctx : validateEpochContext ctx = .ok ()) (h : epochContextsEqual stored ctx = true) :
    (ctx.stakeDistribution.map fun e => toLower e.poolId).Perm
      (stored.stakeDistribution.map fun e => toLower e.poolId) := by
  have hagrees := agrees_of_equal hstored hctx h
  have hlength : stored.stakeDistribution.length = ctx.stakeDistribution.length := by
    simp only [epochContextsEqual, Bool.and_eq_true, beq_iff_eq] at h
    exact h.1.2
  refine (List.subperm_of_subset (validateEpochContext_nodup hctx) ?_).perm_of_length_le
    (by simp [hlength])
  intro key hkey
  obtain ⟨entry, hentry, rfl⟩ := List.mem_map.mp hkey
  obtain ⟨s, hs, hname, -⟩ := hagrees.pools entry hentry
  exact List.mem_map.mpr ⟨s, hs, hname⟩

/-- All that the comparison of contexts leaves open is when the pools were registered. -/
theorem unchanged_iff {stored ctx : EpochContext} (hstored : validateEpochContext stored = .ok ())
    (hctx : validateEpochContext ctx = .ok ()) (h : epochContextsEqual stored ctx = true) :
    Unchanged stored ctx ↔ SameRegistrations stored ctx := by
  have hagrees := agrees_of_equal hstored hctx h
  have hnodup := validateEpochContext_nodup hstored
  have hnodup' := validateEpochContext_nodup hctx
  constructor
  · intro hsame s hs entry hentry hname
    have hfields := hsame.pools (toLower entry.poolId)
    unfold poolFields at hfields
    rw [entryByPool_of_mem hnodup' hentry, ← hname, entryByPool_of_mem hnodup hs] at hfields
    simp only [Option.map_some, Option.some.injEq, Prod.mk.injEq] at hfields
    exact hfields.2.2
  · intro hregistered
    refine ⟨hagrees.epoch, hagrees.nonce, hagrees.kes, hagrees.start, hagrees.stop, ?_⟩
    intro poolKey
    unfold poolFields
    cases hfound : entryByPool ctx.stakeDistribution poolKey with
    | none =>
      have hmissing := entryByPool_eq_none.mp hfound
      rw [(perm_of_equal hstored hctx h).mem_iff] at hmissing
      rw [entryByPool_eq_none.mpr hmissing]
    | some entry =>
      obtain ⟨hentry, rfl⟩ := entryByPool_spec hfound
      obtain ⟨s, hs, hname, hstake, hvrf⟩ := hagrees.pools entry hentry
      rw [← hname, entryByPool_of_mem hnodup hs]
      simp only [Option.map_some, hstake, hvrf, hregistered s hs entry hentry hname]

/-! ## Counting under contexts with the same fields -/

/-- The stakes are looked up by pool, so they are the same up to the order of the pools. -/
theorem totalStake_eq {stored ctx : EpochContext} (hstored : validateEpochContext stored = .ok ())
    (hctx : validateEpochContext ctx = .ok ()) (h : epochContextsEqual stored ctx = true) :
    totalStake stored = totalStake ctx := by
  have hagrees := agrees_of_equal hstored hctx h
  -- both lists of stakes are the stored stake of each pool
  let stakeOf := fun key => ((entryByPool stored.stakeDistribution key).map (·.stake)).getD 0
  have hleft : stored.stakeDistribution.map (·.stake) =
      (stored.stakeDistribution.map fun e => toLower e.poolId).map stakeOf := by
    rw [List.map_map]
    refine List.map_congr_left fun s hs => ?_
    simp [stakeOf, entryByPool_of_mem (validateEpochContext_nodup hstored) hs]
  have hright : ctx.stakeDistribution.map (·.stake) =
      (ctx.stakeDistribution.map fun e => toLower e.poolId).map stakeOf := by
    rw [List.map_map]
    refine List.map_congr_left fun entry hentry => ?_
    obtain ⟨s, hs, hname, hstake, -⟩ := hagrees.pools entry hentry
    simp [stakeOf, ← hname, entryByPool_of_mem (validateEpochContext_nodup hstored) hs, hstake]
  have hperm : (stored.stakeDistribution.map (·.stake)).Perm
      (ctx.stakeDistribution.map (·.stake)) := by
    rw [hleft, hright]
    exact (perm_of_equal hstored hctx h).symm.map stakeOf
  have hsum := hperm.foldl_eq' (f := fun total stake => total + stake)
    (fun x _ y _ z => by rw [UInt64.add_assoc, UInt64.add_comm x y, ← UInt64.add_assoc]) 0
  simpa [totalStake, List.foldl_map] using hsum

theorem poolRegisteredBeforeCutoff_congr {cutoff : UInt64} {stored ctx : EpochContext}
    {poolKey : Bytes} (h : poolFields stored poolKey = poolFields ctx poolKey) :
    poolRegisteredBeforeCutoff cutoff (entryByPool stored.stakeDistribution poolKey) =
      poolRegisteredBeforeCutoff cutoff (entryByPool ctx.stakeDistribution poolKey) := by
  unfold poolFields at h
  cases hs : entryByPool stored.stakeDistribution poolKey with
  | none =>
    rw [hs, Option.map_none, eq_comm, Option.map_eq_none_iff] at h
    rw [h]
  | some s =>
    rw [hs, Option.map_some, eq_comm, Option.map_eq_some_iff] at h
    obtain ⟨entry, hentry, hfields⟩ := h
    simp only [Prod.mk.injEq] at hfields
    obtain ⟨hstake, -, hslot⟩ := hfields
    rw [hentry]
    show (do require (s.firstRegistrationSlot != 0) .ErrInvalidCurrentEpoch
             pure (decide (s.firstRegistrationSlot < cutoff), s.stake)) = _
    rw [← hstake, ← hslot]
    rfl

theorem computeHeaderSecurityMetrics_congr {cs : ClientState} {header : AuthenticatedHeader}
    {stored ctx : EpochContext} (hstored : validateEpochContext stored = .ok ())
    (hctx : validateEpochContext ctx = .ok ()) (h : epochContextsEqual stored ctx = true)
    (hsame : Unchanged stored ctx) :
    cs.computeHeaderSecurityMetrics header stored = cs.computeHeaderSecurityMetrics header ctx := by
  have htally : tallyBlock stored = tallyBlock ctx := by
    funext cutoff anchorEpoch tally block
    unfold tallyBlock
    simp only [poolRegisteredBeforeCutoff_congr (hsame.pools (toLower block.slotLeader))]
  have hempty : stored.stakeDistribution.isEmpty = ctx.stakeDistribution.isEmpty := by
    have hlength := (perm_of_equal hstored hctx h).length_eq
    simp only [List.length_map] at hlength
    rw [Bool.eq_iff_iff, List.isEmpty_iff_length_eq_zero, List.isEmpty_iff_length_eq_zero, hlength]
  unfold ClientState.computeHeaderSecurityMetrics
  rw [htally, hempty, totalStake_eq hstored hctx h]

/-! ## The context of a slot -/

omit [Texts] in
/-- The context that is found for a slot has it. -/
theorem epochContextForSlot_within {contexts : List EpochContext} {slot : UInt64}
    {ctx : EpochContext} (h : epochContextForSlot contexts slot = some ctx) :
    verifySlotWithinEpochContext slot ctx = .ok () := by
  suffices hfold : ∀ start : Option EpochContext,
      (∀ c, start = some c → c.epochStartSlot ≤ slot ∧ slot < c.epochEndSlotExclusive) →
      ∀ c, contexts.foldl (fun found ctx =>
        if ctx.epochStartSlot ≤ slot ∧ slot < ctx.epochEndSlotExclusive then some ctx else found)
        start = some c → c.epochStartSlot ≤ slot ∧ slot < c.epochEndSlotExclusive by
    obtain ⟨hstart, hstop⟩ := hfold none (by simp) ctx h
    simp [verifySlotWithinEpochContext, require, hstart, hstop]
  clear h
  induction contexts with
  | nil => exact fun start hstart c hc => hstart c hc
  | cons c cs ih =>
    intro start hstart
    refine ih _ ?_
    intro d hd
    beta_reduce at hd
    split at hd
    · rename_i hin
      cases hd
      exact hin
    · exact hstart d hd

omit [Texts] in
/-- A context with the same epoch and slots, put in the place of another, changes no slot's
epoch. -/
theorem epochContextForSlot_replace {contexts : List EpochContext} {new : EpochContext}
    (h : ∀ ctx ∈ contexts, ctx.epoch = new.epoch → ctx.epochStartSlot = new.epochStartSlot ∧
      ctx.epochEndSlotExclusive = new.epochEndSlotExclusive) (slot : UInt64) :
    (epochContextForSlot (contexts.map fun ctx => if ctx.epoch = new.epoch then new else ctx)
      slot).map (·.epoch) = (epochContextForSlot contexts slot).map (·.epoch) := by
  unfold epochContextForSlot
  rw [List.foldl_map]
  -- the two folds run in step: what they have found is of one epoch
  suffices hfold : ∀ (found found' : Option EpochContext),
      found.map (·.epoch) = found'.map (·.epoch) →
      (contexts.foldl (fun found ctx =>
        if (if ctx.epoch = new.epoch then new else ctx).epochStartSlot ≤ slot ∧
            slot < (if ctx.epoch = new.epoch then new else ctx).epochEndSlotExclusive
          then some (if ctx.epoch = new.epoch then new else ctx) else found) found).map (·.epoch) =
      (contexts.foldl (fun found ctx =>
        if ctx.epochStartSlot ≤ slot ∧ slot < ctx.epochEndSlotExclusive then some ctx else found)
        found').map (·.epoch) from hfold none none rfl
  induction contexts with
  | nil => exact fun _ _ hsame => hsame
  | cons c cs ih =>
    intro found found' hsame
    refine ih (fun ctx hctx => h ctx (List.mem_cons_of_mem c hctx)) _ _ ?_
    by_cases hc : c.epoch = new.epoch
    · obtain ⟨hstart, hstop⟩ := h c List.mem_cons_self hc
      simp only [hc, if_true, hstart, hstop]
      split
      · simp [hc]
      · exact hsame
    · simp only [hc, if_false]
      split
      · rfl
      · exact hsame

/-! ## Headers -/

variable [Native]

omit [Texts] [Native] in
/-- All blocks of a header. -/
def AuthenticatedHeader.blocks (header : AuthenticatedHeader) : List AuthenticatedBlock :=
  header.anchorBlock :: (header.bridgeBlocks ++ header.descendantBlocks)

theorem authenticateProbabilisticBlock_epoch {cs : ClientState} {block : ProbabilisticBlock}
    {contexts : List EpochContext} {b : AuthenticatedBlock}
    (h : cs.authenticateProbabilisticBlock block contexts = .ok b) :
    (epochContextForSlot contexts b.slot).map (·.epoch) = some b.epoch := by
  simp only [ClientState.authenticateProbabilisticBlock, bind_eq_ok, require_eq_ok, found_eq_ok,
    pure_eq_ok, Prod.exists] at h
  obtain ⟨_, -, decoded, -, -, -, -, -, -, -, time, -, -, -, ctx, hctx, -, -, -, -, poolID,
    vrfKeyHash, -, entry, -, -, -, rfl⟩ := h
  rw [hctx]
  rfl

theorem authenticated_spec {cs : ClientState} {header : ProbabilisticHeader}
    {contexts : List EpochContext} {authenticated : AuthenticatedHeader}
    (h : cs.authenticateHeaderBlocksWithContexts header contexts = .ok authenticated)
    {b : AuthenticatedBlock} (hb : b ∈ authenticated.blocks) :
    ∃ block, cs.authenticateProbabilisticBlock block contexts = .ok b := by
  simp only [ClientState.authenticateHeaderBlocksWithContexts, bind_eq_ok, Prod.exists] at h
  obtain ⟨anchor, _, -, anchorBlock, hanchor, bridge, hbridge, descendants, hdescendants, h⟩ := h
  have heq : authenticated = ⟨anchorBlock, bridge, descendants⟩ := by
    split at h
    · simp only [bind_eq_ok, pure_eq_ok] at h
      obtain ⟨-, -, rfl⟩ := h
      rfl
    · simp only [pure_eq_ok] at h
      exact h.symm
  subst heq
  rcases List.mem_cons.mp hb with rfl | hb
  · exact ⟨anchor, hanchor⟩
  rcases List.mem_append.mp hb with hb | hb
  · obtain ⟨block, -, hblock⟩ := mem_of_mapM hbridge b hb
    exact ⟨block, hblock⟩
  · obtain ⟨block, -, hblock⟩ := mem_of_mapM hdescendants b hb
    exact ⟨block, hblock⟩

omit [Native] in
/-- A context for a stored epoch stands in its place. -/
theorem mergeEpochContexts_replaces {contexts merged : List EpochContext} {new stored : EpochContext}
    (hnormal : Normal contexts) (h : mergeEpochContexts contexts (some new) = .ok merged)
    (hstored : epochContextByEpoch contexts new.epoch = some stored) :
    merged = contexts.map fun ctx => if ctx.epoch = new.epoch then new else ctx := by
  have hbase : normalizeEpochContexts contexts = .ok contexts := by
    simpa [normalizeEpochContexts] using
      Normal.normalizeFrom (show Normal ([] ++ contexts) from hnormal)
  have hany : (contexts.any fun ctx => ctx.epoch == new.epoch) = true := by
    obtain ⟨hmem, hepoch⟩ := epochContextByEpoch_spec hstored
    exact List.any_eq_true.mpr ⟨stored, hmem, by simpa using hepoch⟩
  simp only [mergeEpochContexts, hbase, hany, bind_eq_ok, Except.ok.injEq, exists_eq_left',
    if_true, pure_eq_ok] at h
  obtain ⟨-, -, h⟩ := h
  exact h.symm

/-- A header that brings a context for a stored epoch, and is verified, no misbehaviour and stored,
leaves what was stored as it was, and is counted as if it had brought none, exactly if its pools
were registered in the slots that were stored for them. The client does not look at those. -/
theorem stored_context_stays_iff_registrations_agree {context : Context} {store store' : Store}
    {header : ProbabilisticHeader} {contexts : List EpochContext} {stored new : EpochContext}
    (hverified : verifyHeader store header = .ok ())
    (hclean : CheckForMisbehaviour store header = false)
    (hupdate : UpdateState context store header = .ok store')
    (hnormalized : store.clientState.normalizedEpochContexts = .ok contexts)
    (hnew : header.newEpochContext = some new)
    (hstored : epochContextByEpoch contexts new.epoch = some stored) :
    ∃ trusted merged authenticated ctx metrics kept,
      Verified store header trusted contexts merged authenticated ctx metrics ∧
      epochContextByEpoch store'.clientState.epochContexts new.epoch = some kept ∧
      ((store.clientState.computeHeaderSecurityMetrics authenticated stored = .ok metrics ∧
          (∀ b ∈ authenticated.blocks,
            (epochContextForSlot contexts b.slot).map (·.epoch) = some b.epoch) ∧
          Unchanged stored kept) ↔
        SameRegistrations stored new) := by
  obtain ⟨trusted, contexts', merged, authenticated, ctx, metrics, v⟩ := verifyHeader_spec hverified
  have hcontexts : contexts' = contexts := by
    have := v.normalized
    rw [hnormalized] at this
    exact (Except.ok.inj this).symm
  subst hcontexts
  have hnormal := normalizeEpochContexts_normal v.normalized
  obtain ⟨-, hcandidate, -⟩ := mergeEpochContexts_spec hnormal v.merges
  obtain ⟨hvalid, hfound⟩ := hcandidate new hnew
  have hepoch := (verifyHeaderEpochTransition_spec v.transition).brought new hnew
  have hctx : ctx = new := by
    have hcontext := v.context
    rw [← hepoch, hfound] at hcontext
    exact (Option.some.inj hcontext).symm
  subst hctx
  have hkept := UpdateState_context hupdate v.normalized v.merges v.authenticates v.context
  rw [← hepoch] at hkept
  have hvalid' := hnormal.valid stored (epochContextByEpoch_spec hstored).1
  have hequal : epochContextsEqual stored ctx = true := by
    simp only [CheckForMisbehaviour, Bool.or_eq_false_iff,
      ClientState.headerEpochContextConflictsWithStored, hnew, v.normalized, hstored] at hclean
    simpa using hclean.2
  refine ⟨trusted, merged, authenticated, ctx, metrics, ctx, v, hkept, ?_⟩
  rw [← unchanged_iff hvalid' hvalid hequal]
  refine ⟨fun h => h.2.2, fun hsame => ⟨?_, ?_, hsame⟩⟩
  · rw [computeHeaderSecurityMetrics_congr hvalid' hvalid hequal hsame]
    exact v.metrics_eq
  · intro b hb
    obtain ⟨block, hblock⟩ := authenticated_spec v.authenticates hb
    have hslot := authenticateProbabilisticBlock_epoch hblock
    have hmerges := v.merges
    rw [hnew] at hmerges
    rw [mergeEpochContexts_replaces hnormal hmerges hstored, epochContextForSlot_replace] at hslot
    · exact hslot
    · intro c hc heq
      -- there is only one context of this epoch, the stored one
      have hone := hnormal.byEpoch hc
      rw [heq, hstored, Option.some.injEq] at hone
      exact hone ▸ ⟨hsame.start, hsame.stop⟩

end Law

/-! ## Pools that were registered too late -/

section Sample

local instance storedContextTexts : Texts := asciiTexts

local instance storedContextNative : Native := symbolicNative

/-- The pools of the sample, first registered after the cutoff. -/
def latePools : EpochContext :=
  { samplePools 11 with
    stakeDistribution := (samplePools 11).stakeDistribution.map fun entry =>
      { entry with firstRegistrationSlot := 300000000 } }

/-- A header that says nothing of the pools. -/
def silentHeader : ProbabilisticHeader :=
  sampleHeader none forgedTransaction.hash forgedBody

/-- What is stored for the epoch of the sample. -/
def contextAfter (store : Store) (header : ProbabilisticHeader) : Option EpochContext :=
  (UpdateState sampleNow store header).toOption.bind fun s =>
    epochContextByEpoch s.clientState.epochContexts 11

/-- No pool of the stored context counts, so that the blocks alone are not enough. Brought along
with a context that dates the same pools back, they are: the header is verified, is no misbehaviour
and replaces what was stored. -/
theorem registrations_are_dated_back :
    verifyHeader (sampleStore latePools) silentHeader = .error .ErrInvalidUniquePools ∧
      verifyHeader (sampleStore latePools) forgedHeader = .ok () ∧
      CheckForMisbehaviour (sampleStore latePools) forgedHeader = false ∧
      contextAfter (sampleStore latePools) forgedHeader = some (samplePools 11) ∧
      ¬ SameRegistrations latePools (samplePools 11) := by
  decide +kernel

theorem repeated_verified : verifyHeader (sampleStore (samplePools 11)) forgedHeader = .ok () := by
  decide +kernel

theorem repeated_clean :
    CheckForMisbehaviour (sampleStore (samplePools 11)) forgedHeader = false := by
  decide +kernel

theorem repeated_stored :
    rootAfter (sampleStore (samplePools 11)) forgedHeader = some (List.replicate 32 66) := by
  decide +kernel

/-- A header that repeats the stored context changes nothing. -/
theorem a_repeated_context_stays :
    ∃ store' trusted merged authenticated ctx metrics kept,
      UpdateState sampleNow (sampleStore (samplePools 11)) forgedHeader = .ok store' ∧
      Verified (sampleStore (samplePools 11)) forgedHeader trusted [samplePools 11] merged
        authenticated ctx metrics ∧
      epochContextByEpoch store'.clientState.epochContexts 11 = some kept ∧
      (sampleStore (samplePools 11)).clientState.computeHeaderSecurityMetrics authenticated
        (samplePools 11) = .ok metrics ∧
      Unchanged (samplePools 11) kept := by
  obtain ⟨store', hupdate⟩ := exists_store_of_rootAfter repeated_stored
  obtain ⟨trusted, merged, authenticated, ctx, metrics, kept, v, hkept, hiff⟩ :=
    stored_context_stays_iff_registrations_agree repeated_verified repeated_clean hupdate
      (show _ = Except.ok [samplePools 11] by decide +kernel)
      (show forgedHeader.newEpochContext = some (samplePools 11) from rfl)
      (show _ = some (samplePools 11) by decide +kernel)
  have hsame : SameRegistrations (samplePools 11) (samplePools 11) := by decide +kernel
  obtain ⟨hmetrics, -, hunchanged⟩ := hiff.mpr hsame
  exact ⟨store', trusted, merged, authenticated, ctx, metrics, kept, hupdate, v, hkept, hmetrics,
    hunchanged⟩

end Sample

end cardano_ibc.probabilistic
