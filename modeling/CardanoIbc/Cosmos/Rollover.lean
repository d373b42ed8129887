-- Whose stake counts when the Cosmos-side client moves to the next epoch: the pools of the
-- context the client has stored for that epoch, or of the first one it is given.
import CardanoIbc.Cosmos.Update

namespace cardano_ibc.probabilistic

section Law

variable [Texts]

/-! ## Contexts -/

/-- Two entries of a valid context are never of one pool. -/
theorem validateEntries_nodup {entries : List StakeDistributionEntry} {seen : List Bytes}
    {total out : UInt64} (h : validateEntries entries seen total = .ok out) :
    (entries.map fun e => toLower e.poolId).Nodup ∧
      ∀ e ∈ entries, toLower e.poolId ∉ seen := by
  induction entries generalizing seen total with
  | nil => simp
  | cons entry entries ih =>
    simp only [validateEntries, bind_eq_ok, require_eq_ok] at h
    obtain ⟨-, -, -, -, -, hnew, hrest⟩ := h
    obtain ⟨hnodup, hfresh⟩ := ih hrest
    have hnew : toLower entry.poolId ∉ seen := by simpa using hnew
    simp only [List.map_cons, List.nodup_cons, List.mem_map, not_exists, not_and]
    refine ⟨⟨fun e he heq => hfresh e he ?_, hnodup⟩, ?_⟩
    · rw [heq]
      exact List.mem_cons_self
    · intro e he
      rcases List.mem_cons.mp he with rfl | he
      · exact hnew
      · exact fun hmem => hfresh e he (List.mem_cons_of_mem _ hmem)

theorem validateEpochContext_nodup {ctx : EpochContext} (h : validateEpochContext ctx = .ok ()) :
    (ctx.stakeDistribution.map fun e => toLower e.poolId).Nodup := by
  simp only [validateEpochContext, bind_eq_ok, require_eq_ok] at h
  obtain ⟨-, -, -, -, -, -, -, -, total, hentries, -⟩ := h
  exact (validateEntries_nodup hentries).1

theorem entryByPool_spec {entries : List StakeDistributionEntry} {key : Bytes}
    {entry : StakeDistributionEntry} (h : entryByPool entries key = some entry) :
    entry ∈ entries ∧ toLower entry.poolId = key := by
  have hname := List.find?_some h
  exact ⟨List.mem_reverse.mp (List.mem_of_find?_eq_some h), by simpa using hname⟩

/-- Every pool of the second context is a pool of the first, with the same stake and the same
key, and blocks are proven and signed for both in the same way. -/
structure Agrees (stored ctx : EpochContext) : Prop where
  epoch : stored.epoch = ctx.epoch
  nonce : stored.epochNonce = ctx.epochNonce
  kes : stored.slotsPerKesPeriod = ctx.slotsPerKesPeriod
  start : stored.epochStartSlot = ctx.epochStartSlot
  stop : stored.epochEndSlotExclusive = ctx.epochEndSlotExclusive
  pools : ∀ entry ∈ ctx.stakeDistribution, ∃ s ∈ stored.stakeDistribution,
    toLower s.poolId = toLower entry.poolId ∧ s.stake = entry.stake ∧
      s.vrfKeyHash = entry.vrfKeyHash

theorem Agrees.refl (ctx : EpochContext) : Agrees ctx ctx :=
  ⟨rfl, rfl, rfl, rfl, rfl, fun entry h => ⟨entry, h, rfl, rfl, rfl⟩⟩

/-- Contexts the client takes for equal agree. The code looks up each pool of the first in the
second; as many pools without repeats leave none over. -/
theorem agrees_of_equal {stored ctx : EpochContext} (hstored : validateEpochContext stored = .ok ())
    (hctx : validateEpochContext ctx = .ok ()) (h : epochContextsEqual stored ctx = true) :
    Agrees stored ctx := by
  simp only [epochContextsEqual, Bool.and_eq_true, beq_iff_eq, List.all_eq_true] at h
  obtain ⟨⟨⟨⟨⟨⟨hepoch, hkes⟩, hstart⟩, hstop⟩, hnonce⟩, hlength⟩, hentries⟩ := h
  have hfind : ∀ s ∈ stored.stakeDistribution, ∃ r ∈ ctx.stakeDistribution,
      toLower r.poolId = toLower s.poolId ∧ s.stake = r.stake ∧ s.vrfKeyHash = r.vrfKeyHash := by
    intro s hs
    have hs := hentries s hs
    split at hs
    · cases hs
    · rename_i r hr
      obtain ⟨hmem, hname⟩ := entryByPool_spec hr
      simp only [Bool.and_eq_true, beq_iff_eq] at hs
      exact ⟨r, hmem, hname, hs.1, hs.2⟩
  have hsubset : (stored.stakeDistribution.map fun e => toLower e.poolId) ⊆
      ctx.stakeDistribution.map fun e => toLower e.poolId := by
    intro key hkey
    obtain ⟨s, hs, rfl⟩ := List.mem_map.mp hkey
    obtain ⟨r, hr, hname, -⟩ := hfind s hs
    exact List.mem_map.mpr ⟨r, hr, hname⟩
  have hperm := (List.subperm_of_subset (validateEpochContext_nodup hstored)
    hsubset).perm_of_length_le (by simp [hlength])
  refine ⟨hepoch, hnonce, hkes, hstart, hstop, ?_⟩
  intro entry hentry
  have hmem : toLower entry.poolId ∈ stored.stakeDistribution.map fun e => toLower e.poolId :=
    hperm.mem_iff.mpr (List.mem_map.mpr ⟨entry, hentry, rfl⟩)
  obtain ⟨s, hs, hname⟩ := List.mem_map.mp hmem
  obtain ⟨r, hr, hrname, hstake, hvrf⟩ := hfind s hs
  have hsame : r = entry := List.inj_on_of_nodup_map (validateEpochContext_nodup hctx) hr hentry
    (by rw [hrname, hname])
  rw [hsame] at hstake hvrf
  exact ⟨s, hs, hname, hstake, hvrf⟩

/-- Contexts as the client keeps them: sorted by epoch, one for each, and all valid. -/
structure Normal (contexts : List EpochContext) : Prop where
  sorted : contexts.Pairwise fun a b => a.epoch < b.epoch
  valid : ∀ ctx ∈ contexts, validateEpochContext ctx = .ok ()

omit [Texts] in
theorem mem_insertContext {ctx x : EpochContext} {contexts : List EpochContext}
    (h : x ∈ insertContext ctx contexts) : x = ctx ∨ x ∈ contexts := by
  induction contexts with
  | nil => simpa [insertContext] using h
  | cons c cs ih =>
    unfold insertContext at h
    split at h
    · simpa using h
    · split at h
      · rcases List.mem_cons.mp h with h | h
        · exact .inl h
        · exact .inr (List.mem_cons_of_mem c h)
      · rcases List.mem_cons.mp h with h | h
        · exact .inr (h ▸ List.mem_cons_self)
        · exact (ih h).imp_right (List.mem_cons_of_mem c)

theorem Normal.insert {ctx : EpochContext} {contexts : List EpochContext} (h : Normal contexts)
    (hctx : validateEpochContext ctx = .ok ()) : Normal (insertContext ctx contexts) := by
  refine ⟨?_, ?_⟩
  · have hsorted := h.sorted
    clear h
    induction contexts with
    | nil => exact List.pairwise_singleton _ ctx
    | cons c cs ih =>
      obtain ⟨hc, hcs⟩ := List.pairwise_cons.mp hsorted
      unfold insertContext
      split
      · rename_i hlt
        refine List.pairwise_cons.mpr ⟨fun x hx => ?_, hsorted⟩
        rcases List.mem_cons.mp hx with rfl | hx
        · exact hlt
        · exact UInt64.lt_trans hlt (hc x hx)
      · split
        · rename_i heq
          exact List.pairwise_cons.mpr ⟨fun x hx => heq ▸ hc x hx, hcs⟩
        · rename_i hnlt hne
          refine List.pairwise_cons.mpr ⟨fun x hx => ?_, ih hcs⟩
          rcases mem_insertContext hx with rfl | hx
          · exact UInt64.lt_of_le_of_ne (UInt64.not_lt.mp hnlt) (Ne.symm hne)
          · exact hc x hx
  · intro x hx
    rcases mem_insertContext hx with rfl | hx
    · exact hctx
    · exact h.valid x hx

theorem normalizeFrom_normal {contexts byEpoch out : List EpochContext} (hnormal : Normal byEpoch)
    (h : normalizeFrom contexts byEpoch = .ok out) : Normal out := by
  induction contexts generalizing byEpoch with
  | nil =>
    cases h
    exact hnormal
  | cons ctx contexts ih =>
    simp only [normalizeFrom, bind_eq_ok] at h
    obtain ⟨_, hvalid, h⟩ := h
    split at h
    · simp only [bind_eq_ok] at h
      obtain ⟨-, -, hrest⟩ := h
      exact ih (hnormal.insert hvalid) hrest
    · exact ih (hnormal.insert hvalid) h

theorem normalizeEpochContexts_normal {contexts out : List EpochContext}
    (h : normalizeEpochContexts contexts = .ok out) : Normal out :=
  normalizeFrom_normal ⟨List.Pairwise.nil, by simp⟩ h

/-- There is one context for each epoch. -/
theorem Normal.byEpoch {contexts : List EpochContext} (h : Normal contexts) {ctx : EpochContext}
    (hmem : ctx ∈ contexts) : epochContextByEpoch contexts ctx.epoch = some ctx := by
  have hsorted := h.sorted
  clear h
  induction contexts with
  | nil => cases hmem
  | cons c cs ih =>
    obtain ⟨hc, hcs⟩ := List.pairwise_cons.mp hsorted
    rcases List.mem_cons.mp hmem with rfl | hmem
    · simp [epochContextByEpoch]
    · have hne : c.epoch ≠ ctx.epoch := UInt64.ne_of_lt (hc ctx hmem)
      simpa [epochContextByEpoch, hne] using ih hmem hcs

omit [Texts] in
theorem epochContextByEpoch_spec {contexts : List EpochContext} {epoch : UInt64}
    {ctx : EpochContext} (h : epochContextByEpoch contexts epoch = some ctx) :
    ctx ∈ contexts ∧ ctx.epoch = epoch := by
  have hepoch := List.find?_some h
  exact ⟨List.mem_of_find?_eq_some h, by simpa using hepoch⟩

omit [Texts] in
theorem self_mem_insertContext (ctx : EpochContext) (contexts : List EpochContext) :
    ctx ∈ insertContext ctx contexts := by
  induction contexts with
  | nil => exact List.mem_cons_self
  | cons c cs ih =>
    unfold insertContext
    split
    · exact List.mem_cons_self
    · split
      · exact List.mem_cons_self
      · exact List.mem_cons_of_mem c ih

/-- The last context is never lost. -/
theorem mem_normalizeFrom_append {contexts byEpoch out : List EpochContext} {ctx : EpochContext}
    (h : normalizeFrom (contexts ++ [ctx]) byEpoch = .ok out) : ctx ∈ out := by
  induction contexts generalizing byEpoch with
  | nil =>
    simp only [List.nil_append, normalizeFrom, bind_eq_ok] at h
    obtain ⟨_, -, h⟩ := h
    split at h
    · simp only [bind_eq_ok] at h
      obtain ⟨-, -, h⟩ := h
      cases h
      exact self_mem_insertContext ctx byEpoch
    · cases h
      exact self_mem_insertContext ctx byEpoch
  | cons c cs ih =>
    simp only [List.cons_append, normalizeFrom, bind_eq_ok] at h
    obtain ⟨_, -, h⟩ := h
    split at h
    · simp only [bind_eq_ok] at h
      obtain ⟨-, -, h⟩ := h
      exact ih h
    · exact ih h

omit [Texts] in
theorem insertContext_last {ctx : EpochContext} {contexts : List EpochContext}
    (h : ∀ c ∈ contexts, c.epoch < ctx.epoch) : insertContext ctx contexts = contexts ++ [ctx] := by
  induction contexts with
  | nil => rfl
  | cons c cs ih =>
    have hc := h c List.mem_cons_self
    rw [insertContext, if_neg (UInt64.not_lt.mpr (UInt64.le_of_lt hc)),
      if_neg (Ne.symm (UInt64.ne_of_lt hc)), ih fun x hx => h x (List.mem_cons_of_mem c hx)]
    rfl

/-- Normal contexts stay as they are. -/
theorem Normal.normalizeFrom {contexts byEpoch : List EpochContext}
    (h : Normal (byEpoch ++ contexts)) :
    probabilistic.normalizeFrom contexts byEpoch = .ok (byEpoch ++ contexts) := by
  induction contexts generalizing byEpoch with
  | nil => simp [probabilistic.normalizeFrom]
  | cons ctx contexts ih =>
    have hless : ∀ c ∈ byEpoch, c.epoch < ctx.epoch := fun c hc =>
      (List.pairwise_append.mp h.sorted).2.2 c hc ctx List.mem_cons_self
    have hnone : epochContextByEpoch byEpoch ctx.epoch = none := by
      refine List.find?_eq_none.mpr fun c hc => ?_
      simpa using UInt64.ne_of_lt (hless c hc)
    have hvalid := h.valid ctx (List.mem_append_right _ List.mem_cons_self)
    have hsplit : byEpoch ++ ctx :: contexts = (byEpoch ++ [ctx]) ++ contexts := by simp
    rw [hsplit] at h ⊢
    rw [← ih h, probabilistic.normalizeFrom, hvalid, hnone, insertContext_last hless]
    rfl

/-- The merged contexts are normal, and hold the candidate and else what was stored. -/
theorem mergeEpochContexts_spec {contexts merged : List EpochContext}
    {candidate : Option EpochContext} (hnormal : Normal contexts)
    (h : mergeEpochContexts contexts candidate = .ok merged) :
    Normal merged ∧ (∀ ctx, candidate = some ctx → validateEpochContext ctx = .ok () ∧
        epochContextByEpoch merged ctx.epoch = some ctx) ∧
      (candidate = none → merged = contexts) := by
  have hbase : normalizeEpochContexts contexts = .ok contexts :=
    by
    simpa [normalizeEpochContexts] using Normal.normalizeFrom (show Normal ([] ++ contexts) from hnormal)
  simp only [mergeEpochContexts, hbase, bind_eq_ok, Except.ok.injEq, exists_eq_left'] at h
  cases candidate with
  | none =>
    simp only [pure_eq_ok] at h
    subst h
    exact ⟨hnormal, by simp, fun _ => rfl⟩
  | some ctx =>
    simp only [bind_eq_ok] at h
    obtain ⟨_, hvalid, h⟩ := h
    suffices Normal merged ∧ ctx ∈ merged by
      refine ⟨this.1, ?_, by simp⟩
      intro ctx' hctx'
      cases hctx'
      exact ⟨hvalid, this.1.byEpoch this.2⟩
    split at h
    · rename_i hany
      simp only [pure_eq_ok] at h
      subst h
      refine ⟨⟨?_, ?_⟩, ?_⟩
      · refine List.pairwise_map.mpr (hnormal.sorted.imp fun {a b} hab => ?_)
        split <;> split <;> simp_all
      · intro x hx
        obtain ⟨y, hy, rfl⟩ := List.mem_map.mp hx
        split
        · exact hvalid
        · exact hnormal.valid y hy
      · simp only [List.any_eq_true, beq_iff_eq] at hany
        obtain ⟨y, hy, heq⟩ := hany
        exact List.mem_map.mpr ⟨y, hy, if_pos heq⟩
    · exact ⟨normalizeEpochContexts_normal h, mem_normalizeFrom_append h⟩

/-! ## Blocks -/

variable [Native]

/-- A block that was made for a context: its issuer is one of the pools, it is signed for the
context's period and its leader value is proven with that pool's key and the context's nonce. -/
structure IssuedUnder (ctx : EpochContext) (decoded : LedgerBlock) (b : AuthenticatedBlock) :
    Prop where
  leader : b.slotLeader = poolIdOf decoded.header.issuerVkey
  epoch : b.epoch = ctx.epoch
  signed : verifyKes decoded.header ctx.slotsPerKesPeriod = some true
  proven : ∃ proof output, decoded.header.vrfResult = some (output, proof) ∧
    vrfVerifyAndHash decoded.header.vrfKey proof (mkInputVrf decoded.header.slot ctx.epochNonce) =
      some output
  pool : ∃ entry ∈ ctx.stakeDistribution, equalFold entry.poolId b.slotLeader = true ∧
    entry.vrfKeyHash = sum256 decoded.header.vrfKey

omit [Texts] [Native] in
theorem epochContextForSlot_mem {contexts : List EpochContext} {slot : UInt64}
    {start : Option EpochContext} {ctx : EpochContext}
    (h : contexts.foldl (fun found ctx =>
      if ctx.epochStartSlot ≤ slot ∧ slot < ctx.epochEndSlotExclusive then some ctx else found)
      start = some ctx) : ctx ∈ contexts ∨ start = some ctx := by
  induction contexts generalizing start with
  | nil => exact .inr h
  | cons c cs ih =>
    rcases ih h with hmem | hstart
    · exact .inl (List.mem_cons_of_mem c hmem)
    · beta_reduce at hstart
      split at hstart
      · cases hstart
        exact .inl List.mem_cons_self
      · exact .inr hstart

theorem authenticateProbabilisticBlock_spec {cs : ClientState} {block : ProbabilisticBlock}
    {contexts : List EpochContext} {b : AuthenticatedBlock}
    (h : cs.authenticateProbabilisticBlock block contexts = .ok b) :
    ∃ ctx ∈ contexts, ∃ decoded, block.blockCbor = some decoded ∧ IssuedUnder ctx decoded b := by
  simp only [ClientState.authenticateProbabilisticBlock, verifyNativeProbabilisticBlock,
    VerifyNativeBlock, findStakeDistributionEntryInContext, bind_eq_ok, require_eq_ok, found_eq_ok,
    pure_eq_ok, Prod.exists, Prod.mk.injEq] at h
  obtain ⟨_, -, decoded, hdecoded, -, -, -, -, -, -, time, -, -, -, ctx, hctx, -, -, -, -, poolID,
    vrfKeyHash, ⟨valid, vrfKey, ⟨kes, hkes, output, proof, hresult, out, hvrf, hvalid, rfl⟩, -,
    hisValid, rfl, rfl⟩, entry, hentry, -, hkey, rfl⟩ := h
  have hmem : ctx ∈ contexts := by
    rcases epochContextForSlot_mem hctx with h | h
    · exact h
    · cases h
  rw [← hvalid] at hisValid
  simp only [Bool.and_eq_true, beq_iff_eq] at hisValid
  obtain ⟨⟨rfl, rfl⟩, -⟩ := hisValid
  have hfound := List.find?_some hentry
  exact ⟨ctx, hmem, decoded, hdecoded, rfl, rfl, hkes, ⟨proof, out, hresult, hvrf⟩,
    entry, List.mem_of_find?_eq_some hentry, hfound, by simpa using hkey⟩

theorem descendant_spec {cs : ClientState} {header : ProbabilisticHeader}
    {contexts : List EpochContext} {authenticated : AuthenticatedHeader}
    (h : cs.authenticateHeaderBlocksWithContexts header contexts = .ok authenticated)
    {b : AuthenticatedBlock} (hb : b ∈ authenticated.descendantBlocks) :
    ∃ block ∈ header.descendantBlocks,
      cs.authenticateProbabilisticBlock block contexts = .ok b := by
  simp only [ClientState.authenticateHeaderBlocksWithContexts, bind_eq_ok, Prod.exists] at h
  obtain ⟨anchor, _, -, anchorBlock, -, bridge, -, descendants, hdescendants, h⟩ := h
  have heq : authenticated.descendantBlocks = descendants := by
    split at h
    · simp only [bind_eq_ok, pure_eq_ok] at h
      obtain ⟨-, -, rfl⟩ := h
      rfl
    · simp only [pure_eq_ok] at h
      rw [← h]
  exact mem_of_mapM hdescendants b (heq ▸ hb)

/-! ## Storing the context -/

omit [Texts] [Native] in
theorem keepContexts_context {store : Store} {merged : List EpochContext} {epoch : UInt64}
    {ctx : EpochContext} {cs : ClientState} (h : keepContexts store merged epoch = .ok cs)
    (hctx : epochContextByEpoch merged epoch = some ctx) :
    epochContextByEpoch cs.epochContexts epoch = some ctx := by
  simp only [keepContexts, syncCurrentEpochFields, bind_eq_ok, found_eq_ok, pure_eq_ok] at h
  obtain ⟨kept, -, rfl⟩ := h
  simp only [epochContextByEpoch, retainEpochContexts, List.find?_filter]
  refine Eq.trans (congrArg (merged.find? ·) (funext fun c => ?_)) hctx
  by_cases hc : c.epoch = epoch <;> simp [hc]

/-- After an update the client has the anchor epoch's context among its own. -/
theorem UpdateState_context {context : Context} {store store' : Store}
    {header : ProbabilisticHeader} {contexts merged : List EpochContext}
    {authenticated : AuthenticatedHeader} {ctx : EpochContext}
    (h : UpdateState context store header = .ok store')
    (hnormalized : store.clientState.normalizedEpochContexts = .ok contexts)
    (hmerges : mergeEpochContexts contexts header.newEpochContext = .ok merged)
    (hauthenticates : store.clientState.authenticateHeaderBlocksWithContexts header merged =
      .ok authenticated)
    (hctx : epochContextByEpoch merged authenticated.anchorBlock.epoch = some ctx) :
    epochContextByEpoch store'.clientState.epochContexts authenticated.anchorBlock.epoch =
      some ctx := by
  simp only [UpdateState, hnormalized, hmerges, hauthenticates, bind_eq_ok, found_eq_ok,
    Except.ok.injEq, exists_eq_left'] at h
  obtain ⟨trusted, -, _, -, ctx', -, h⟩ := h
  split at h
  · simp only [persistCheckpoint, bind_eq_ok, pure_eq_ok] at h
    obtain ⟨cs, hcs, rfl⟩ := h
    have := keepContexts_context hcs hctx
    exact this
  · simp only [bind_eq_ok, pure_eq_ok, Prod.exists] at h
    obtain ⟨_, height, -, pruned, -, root, -, metrics, -, cs, hcs, rfl⟩ := h
    have := keepContexts_context hcs hctx
    exact this

/-- The context a verified header is counted under: one that agrees with what was stored for the
anchor's epoch, and if nothing was, the header's own. -/
theorem Verified.counted_context {store : Store} {header : ProbabilisticHeader}
    {trusted : TrustedBlockState} {contexts merged : List EpochContext}
    {authenticated : AuthenticatedHeader} {ctx : EpochContext} {metrics : Metrics}
    (v : Verified store header trusted contexts merged authenticated ctx metrics)
    (hclean : CheckForMisbehaviour store header = false) :
    (∀ stored, epochContextByEpoch contexts authenticated.anchorBlock.epoch = some stored →
        Agrees stored ctx) ∧
      (epochContextByEpoch contexts authenticated.anchorBlock.epoch = none →
        header.newEpochContext = some ctx) := by
  have hnormal := normalizeEpochContexts_normal v.normalized
  obtain ⟨hmerged, hcandidate, hnone⟩ := mergeEpochContexts_spec hnormal v.merges
  have hcontext := v.context
  cases hnew : header.newEpochContext with
  | none =>
    rw [hnone hnew] at hcontext
    refine ⟨fun stored hstored => ?_, fun hmissing => ?_⟩
    · rw [hstored, Option.some.injEq] at hcontext
      exact hcontext ▸ Agrees.refl stored
    · rw [hmissing] at hcontext
      cases hcontext
  | some candidate =>
    obtain ⟨hvalid, hfound⟩ := hcandidate candidate hnew
    have hepoch := (verifyHeaderEpochTransition_spec v.transition).brought candidate hnew
    rw [hepoch, hcontext, Option.some.injEq] at hfound
    subst hfound
    refine ⟨fun stored hstored => ?_, fun _ => rfl⟩
    simp only [CheckForMisbehaviour, Bool.or_eq_false_iff,
      ClientState.headerEpochContextConflictsWithStored, hnew, v.normalized, hepoch,
      hstored] at hclean
    exact agrees_of_equal (hnormal.valid stored (epochContextByEpoch_spec hstored).1) hvalid
      (by simpa using hclean.2)

/-- Which pools count for a header that is verified, no misbehaviour and stored: pools of a context
that agrees with the one stored for the anchor's epoch, and of the header's own context if that
epoch was not stored. That context is then stored for the epoch. -/
theorem counted_pools_are_stored_or_first_named {context : Context} {store store' : Store}
    {header : ProbabilisticHeader} (hverified : verifyHeader store header = .ok ())
    (hclean : CheckForMisbehaviour store header = false)
    (hstored : UpdateState context store header = .ok store') :
    ∃ trusted contexts merged authenticated ctx metrics,
      Verified store header trusted contexts merged authenticated ctx metrics ∧
      (∀ b ∈ authenticated.descendantBlocks, ∃ block ∈ header.descendantBlocks, ∃ decoded,
        block.blockCbor = some decoded ∧ IssuedUnder ctx decoded b) ∧
      (∀ stored, epochContextByEpoch contexts authenticated.anchorBlock.epoch = some stored →
        Agrees stored ctx) ∧
      (epochContextByEpoch contexts authenticated.anchorBlock.epoch = none →
        header.newEpochContext = some ctx) ∧
      epochContextByEpoch store'.clientState.epochContexts authenticated.anchorBlock.epoch =
        some ctx := by
  obtain ⟨trusted, contexts, merged, authenticated, ctx, metrics, v⟩ := verifyHeader_spec hverified
  obtain ⟨hagrees, hfirst⟩ := v.counted_context hclean
  refine ⟨trusted, contexts, merged, authenticated, ctx, metrics, v, ?_, hagrees, hfirst,
    UpdateState_context hstored v.normalized v.merges v.authenticates v.context⟩
  intro b hb
  obtain ⟨block, hblock, hauthentic⟩ := descendant_spec v.authenticates hb
  obtain ⟨used, hused, decoded, hdecoded, hissued⟩ :=
    authenticateProbabilisticBlock_spec hauthentic
  -- the block's context is found by its slot, and has to be the anchor epoch's
  have hepoch := (verifyHeaderEpochTransition_spec v.transition).descendants b hb
  obtain ⟨hmerged, -, -⟩ :=
    mergeEpochContexts_spec (normalizeEpochContexts_normal v.normalized) v.merges
  have hsame := hmerged.byEpoch hused
  rw [← hissued.epoch, hepoch, v.context, Option.some.injEq] at hsame
  exact ⟨block, hblock, decoded, hdecoded, hsame ▸ hissued⟩

end Law

/-! ## A first context that is not genuine -/

section Sample

/-- Texts of ASCII. -/
abbrev asciiTexts : Texts where
  toLower bz := bz.map fun b => if 65 ≤ b && b ≤ 90 then b + 32 else b
  equalFold a b := (a.map fun b => if 65 ≤ b && b ≤ 90 then b + 32 else b) ==
    b.map fun b => if 65 ≤ b && b ≤ 90 then b + 32 else b
  trimSpace bz := (bz.dropWhile (· == 32)).reverse.dropWhile (· == 32) |>.reverse

/-- The transactions of a block whose only one spends a host state and leaves one with this root
behind, as they stand in the block. -/
def sampleBodies (root : Bytes) : Bytes :=
    bigEndian 40 0x81a500d9010281825820e0e0e0e0e0e0e0e0e0e0e0e0e0e0e0e0e0e0e0e0e0e0e0e0e0e0e0e0e0e0 ++
    bigEndian 40 0xe0e0000181a300581d70020202020202020202020202020202020202020202020202020202020182 ++
    bigEndian 40 0x1a001e8480a1581c01010101010101010101010101010101010101010101010101010101a14e6962 ++
    bigEndian 29 0x635f686f73745f737461746501028201d818586dd87984d87987015820 ++
    root ++
    bigEndian 40 0x0000008000581c01010101010101010101010101010101010101010101010101010101581c505050 ++
    bigEndian 40 0x50505050505050505050505050505050505050505050505050d87980021a00030d400b5820030303 ++
    bigEndian 40 0x03030303030303030303030303030303030303030303030303030303030dd9010281825820e0e0e0 ++
    bigEndian 30 0xe0e0e0e0e0e0e0e0e0e0e0e0e0e0e0e0e0e0e0e0e0e0e0e0e0e0e0e0e001

/-- The four digests that a block's body hash is made of. -/
def bodyDigests (bodies witnesses metadata invalid : Nat) : Bytes :=
  bigEndian 32 bodies ++ bigEndian 32 witnesses ++ bigEndian 32 metadata ++ bigEndian 32 invalid

/-- BLAKE2b-256 of the keys and block bodies of the sample. -/
def sampleDigests : List (Bytes × Nat) := [
  (List.replicate 32 101, 0x42346c4ef5be85eec2f8c6ed231072540de2badaaa9496e308e4227f7f4596ea),
  (List.replicate 32 102, 0x12c8387055d8cebcef395e6b61c65de2243c236b16cbcd51f1d9e48369747b35),
  (List.replicate 32 103, 0x6fa8506a2249e96f5a23884b1bf40bd89e740b6725ac130e087cd18e0f4fa70f),
  (List.replicate 32 104, 0xae2f039e43a8172d9518a0c27c347efd9a17184fed4866e6c317db224ac0d86f),
  (List.replicate 32 105, 0x6ea1592451d0f7627870d8338a82aad663b475f667b7c3a1e2fde40f1c81ccf1),
  ([0x80], 0x45b0cfc220ceec5b7c1c62c4d4193d38e4eba48e8815729ce75f9c0ab0e4c1c0),
  ([0xa0], 0xd36a2619a672494604e11bb447cbcf5231e9f2ba25c2169177edc941bd50ad6c),
  ([0x81, 0xa0], 0x4ba92aa320c60acc9ad7b9a64f2eda55c4d2ec28e604faf186708b4f0c4e8edf),
  ([0x81, 0x00], 0xddee56aca8d1f17b2eaf7c8eea0c6e4d6b57734393c05e97d664950dcaa4627e),
  (sampleBodies (List.replicate 32 66),
    0xe6901f5be0d182d3d598e3f5c21a753e5ad4680e62e29f8d78a7bffdb370521b),
  (sampleBodies (List.replicate 32 2),
    0xd741c6a7b8406b58542dc95f1c9c0036e68589f42c04f98841d3d543d753c650),
  (bodyDigests 0x45b0cfc220ceec5b7c1c62c4d4193d38e4eba48e8815729ce75f9c0ab0e4c1c0
      0x45b0cfc220ceec5b7c1c62c4d4193d38e4eba48e8815729ce75f9c0ab0e4c1c0
      0xd36a2619a672494604e11bb447cbcf5231e9f2ba25c2169177edc941bd50ad6c
      0x45b0cfc220ceec5b7c1c62c4d4193d38e4eba48e8815729ce75f9c0ab0e4c1c0,
    0x29571d16f081709b3c48651860077bebf9340abb3fc7133443c54f1f5a5edcf1),
  (bodyDigests 0xe6901f5be0d182d3d598e3f5c21a753e5ad4680e62e29f8d78a7bffdb370521b
      0x4ba92aa320c60acc9ad7b9a64f2eda55c4d2ec28e604faf186708b4f0c4e8edf
      0xd36a2619a672494604e11bb447cbcf5231e9f2ba25c2169177edc941bd50ad6c
      0x45b0cfc220ceec5b7c1c62c4d4193d38e4eba48e8815729ce75f9c0ab0e4c1c0,
    0x21b30b4a7c7c19b5eee8dfe7605db91fef24eba381680751cfb733fccca423a1),
  (bodyDigests 0xe6901f5be0d182d3d598e3f5c21a753e5ad4680e62e29f8d78a7bffdb370521b
      0x4ba92aa320c60acc9ad7b9a64f2eda55c4d2ec28e604faf186708b4f0c4e8edf
      0xd36a2619a672494604e11bb447cbcf5231e9f2ba25c2169177edc941bd50ad6c
      0xddee56aca8d1f17b2eaf7c8eea0c6e4d6b57734393c05e97d664950dcaa4627e,
    0xfcc70a4fce0f8e55cf24cb64addcec865594b57115e3cd4bed699a804ee8a3a8),
  (bodyDigests 0xd741c6a7b8406b58542dc95f1c9c0036e68589f42c04f98841d3d543d753c650
      0x4ba92aa320c60acc9ad7b9a64f2eda55c4d2ec28e604faf186708b4f0c4e8edf
      0xd36a2619a672494604e11bb447cbcf5231e9f2ba25c2169177edc941bd50ad6c
      0x45b0cfc220ceec5b7c1c62c4d4193d38e4eba48e8815729ce75f9c0ab0e4c1c0,
    0x8d110ee35e0a4d3a09121ccd42b065aeae2630d17f586adda2412a21425a8dd0)]

/-- Signatures as symbols: only who has the key can write one down. A block is signed by its hot
key, and a leader value is proven by the key and the seed. -/
abbrev symbolicNative : Native where
  verifyKes header _ := some (header.kesSignature == header.opCert.hotVkey)
  mkInputVrf slot nonce := bigEndian 8 slot.toNat ++ nonce
  vrfVerifyAndHash key proof seed := if proof = key ++ seed then some (key ++ seed) else none
  sum256 m := bigEndian 32 ((get_first sampleDigests m).getD 0)
  poolIdOf vkey := utf8 "pool1" ++ vkey

local instance : Texts := asciiTexts

local instance : Native := symbolicNative

/-- The pool with this number, which holds a fifth of the stake. -/
def samplePool (n : Nat) : StakeDistributionEntry where
  poolId := utf8 "pool1" ++ [(97 + n).toUInt8]
  stake := 1000
  vrfKeyHash := sum256 (List.replicate 32 (101 + n).toUInt8)
  firstRegistrationSlot := 1

def samplePools (epoch : UInt64) : EpochContext where
  epoch := epoch
  stakeDistribution := (List.range 5).map samplePool
  epochNonce := List.replicate 32 7
  slotsPerKesPeriod := 129600
  epochStartSlot := 2000
  epochEndSlotExclusive := 3000

/-- The context before it, with one pool that is none of these. -/
def genuineContext : EpochContext where
  epoch := 10
  stakeDistribution := [{ poolId := utf8 "pool1z", stake := 1000, vrfKeyHash := List.replicate 32 9,
                          firstRegistrationSlot := 1 }]
  epochNonce := List.replicate 32 6
  slotsPerKesPeriod := 129600
  epochStartSlot := 1000
  epochEndSlotExclusive := 2000

def sampleBlockHash (i : Nat) : Bytes := if i = 0 then utf8 "trusted" else [98, i.toUInt8]

/-- The host state's datum with this root, as the client reads it. -/
def sampleDatum (root : Bytes) : PlutusData :=
  .constr 0 [
    .constr 0 [.integer 1, .bytes root, .integer 0, .integer 0, .integer 0, .list [], .integer 0],
    .bytes (List.replicate 28 1), .bytes (List.replicate 28 80), .constr 0 []]

def sampleOutput (root : Bytes) : TransactionOutput where
  value := [([], [], 2000000), (List.replicate 28 1, utf8 "ibc_host_state", 1)]
  datum := some (sampleDatum root)

/-- The transaction before the sample. -/
def sampleSource : Bytes := (List.replicate 32 (utf8 "e0")).flatten

/-- The transaction that spends a host state and leaves one with this root behind. -/
def sampleTransaction (root hash : Bytes) : TransactionBody where
  hash := hash
  inputs := [{ txHash := sampleSource, index := 0 }]
  outputs := [sampleOutput root]
  mint := []
  collateral := [{ txHash := sampleSource, index := 1 }]
  collateralReturn := none

/-- The body of a block: its parts, the digest in its header and what it decodes to. -/
structure SampleBody where
  fields : RawBlockBodyFields
  hash : Nat
  transactions : List TransactionBody
  invalid : List Nat

def emptyBody : SampleBody where
  fields :=
    { transactionBodies := [0x80], transactionWitnessSets := [0x80],
      transactionMetadataSet := [0xa0], invalidTransactions := [0x80] }
  hash := 0x29571d16f081709b3c48651860077bebf9340abb3fc7133443c54f1f5a5edcf1
  transactions := []
  invalid := []

def forgedTransaction : TransactionBody :=
  sampleTransaction (List.replicate 32 66)
    (utf8 "a79d9e335d23462dcd730eb134a184558aae58c218f08294ada0fec2dac39614")

/-- A block with a transaction that leaves a forged root behind. -/
def forgedBody : SampleBody where
  fields :=
    { transactionBodies := sampleBodies (List.replicate 32 66),
      transactionWitnessSets := [0x81, 0xa0], transactionMetadataSet := [0xa0],
      invalidTransactions := [0x80] }
  hash := 0x21b30b4a7c7c19b5eee8dfe7605db91fef24eba381680751cfb733fccca423a1
  transactions := [forgedTransaction]
  invalid := []

/-- The block so many places after the trusted one, issued by the pools in turn. -/
def sampleLedgerBlock (body : SampleBody) (i : Nat) : LedgerBlock :=
  let key := List.replicate 32 (101 + i % 5).toUInt8
  let slot := (2000 + i).toUInt64
  let proof := key ++ mkInputVrf slot (List.replicate 32 7)
  { header :=
      { blockNumber := (100 + i).toUInt64, slot, prevHash := sampleBlockHash (i - 1),
        issuerVkey := [(97 + i % 5).toUInt8], vrfKey := key, vrfResult := some (proof, proof),
        blockBodyHash := bigEndian 32 body.hash
        opCert := { hotVkey := [5], sequenceNumber := 0, kesPeriod := 0, signature := [] }
        kesSignature := [5] }
    hash := sampleBlockHash i
    bodyFields := body.fields
    transactions := body.transactions
    invalidTransactions := body.invalid }

def sampleBlock (body : SampleBody) (i : Nat) : ProbabilisticBlock :=
  { height := some (100 + i).toUInt64, slot := (2000 + i).toUInt64, hash := sampleBlockHash i,
    epoch := 11, timestamp := 1506203091000000000 + (2000 + i).toUInt64 * 1000000000,
    blockCbor := some (sampleLedgerBlock body i) }

/-- A header for the transaction in the first block, with the 24 empty blocks that follow it. -/
def sampleHeader (ctx : Option EpochContext) (txHash : Bytes) (body : SampleBody) :
    ProbabilisticHeader where
  trustedHeight := some 100
  anchorBlock := some (sampleBlock body 1)
  descendantBlocks := (List.range 24).map fun i => sampleBlock emptyBody (i + 2)
  hostStateTxHash := txHash
  hostStateTxOutputIndex := 0
  bridgeBlocks := []
  newEpochContext := ctx
  isCheckpoint := false

/-- A client that trusts the block before these, with one context stored. -/
def sampleStore (ctx : EpochContext) : Store where
  clientState :=
    { chainId := utf8 "cardano", latestHeight := some 100, frozenHeight := none,
      currentEpoch := ctx.epoch, trustingPeriod := 1000000000000000000,
      hostStateNftPolicyId := List.replicate 28 1, hostStateNftTokenName := utf8 "ibc_host_state",
      epochStakeDistribution := ctx.stakeDistribution, epochNonce := ctx.epochNonce,
      slotsPerKesPeriod := ctx.slotsPerKesPeriod, currentEpochStartSlot := ctx.epochStartSlot,
      currentEpochEndSlotExclusive := ctx.epochEndSlotExclusive,
      systemStartUnixNs := 1506203091000000000, slotLengthNs := 1000000000,
      epochContexts := [ctx], latestCheckpointHeight := some 100,
      latestCheckpointBlockHash := utf8 "trusted", latestCheckpointEpoch := ctx.epoch }
  consensusStates := [(100,
    { timestamp := 1506205090000000000, ibcStateRoot := List.replicate 32 1,
      acceptedBlockHash := utf8 "trusted", acceptedEpoch := ctx.epoch, uniquePoolsCount := 5,
      uniqueStakeBps := 10000, securityScoreBps := 10000 })]
  processedTimes := [(100, 1)]
  processedHeights := [(100, 1)]
  iterationKeys := [(100, ())]
  scores := [(100, 10000)]
  uniquePools := [(100, 5)]
  uniqueStakes := [(100, 10000)]
  acceptedBlockHashes := [(100, utf8 "trusted")]

def sampleNow : Context := { blockTime := 1506206000000000000, blockHeight := 50 }

/-- A header whose own context names the pools that made it. -/
def forgedHeader : ProbabilisticHeader :=
  sampleHeader (some (samplePools 11)) forgedTransaction.hash forgedBody

/-- What is stored for the height of the anchor. -/
def rootAfter (store : Store) (header : ProbabilisticHeader) : Option Bytes :=
  ((UpdateState sampleNow store header).toOption.bind fun s => s.consensusState 101).map
    ConsensusState.ibcStateRoot

theorem forgedHeader_verified : verifyHeader (sampleStore genuineContext) forgedHeader = .ok () := by
  decide +kernel

theorem forgedHeader_clean :
    CheckForMisbehaviour (sampleStore genuineContext) forgedHeader = false := by
  decide +kernel

theorem forgedHeader_stored :
    rootAfter (sampleStore genuineContext) forgedHeader = some (List.replicate 32 66) := by
  decide +kernel

/-- The issuers of a header's blocks. -/
def issuers (header : ProbabilisticHeader) : List Bytes :=
  (header.anchorBlock.toList ++ header.descendantBlocks).filterMap fun block =>
    block.blockCbor.map fun decoded => poolIdOf decoded.header.issuerVkey

/-- A header is verified and its root stored though no pool of any stored context made a block of
it: the pools it is counted by are the ones it names itself. -/
theorem a_stranger_names_the_pools :
    verifyHeader (sampleStore genuineContext) forgedHeader = .ok () ∧
      CheckForMisbehaviour (sampleStore genuineContext) forgedHeader = false ∧
      rootAfter (sampleStore genuineContext) forgedHeader = some (List.replicate 32 66) ∧
      forgedHeader.anchorBlock.map ProbabilisticBlock.epoch =
        some ((sampleStore genuineContext).clientState.latestCheckpointEpoch + 1) ∧
      ∀ ctx ∈ (sampleStore genuineContext).clientState.epochContexts,
        ∀ entry ∈ ctx.stakeDistribution, entry.poolId ∉ issuers forgedHeader :=
  ⟨forgedHeader_verified, forgedHeader_clean, forgedHeader_stored, by decide, by decide +kernel⟩

theorem exists_store_of_rootAfter {store : Store} {header : ProbabilisticHeader} {root : Bytes}
    (h : rootAfter store header = some root) :
    ∃ store', UpdateState sampleNow store header = .ok store' := by
  unfold rootAfter at h
  cases hupdate : UpdateState sampleNow store header with
  | error e => simp [hupdate, Except.toOption] at h
  | ok store' => exact ⟨store', rfl⟩

theorem the_first_named_context_is_stored :
    ∃ store', UpdateState sampleNow (sampleStore genuineContext) forgedHeader = .ok store' ∧
    ∃ trusted contexts merged authenticated ctx metrics,
      Verified (sampleStore genuineContext) forgedHeader trusted contexts merged authenticated ctx
        metrics ∧
      (∀ b ∈ authenticated.descendantBlocks, ∃ block ∈ forgedHeader.descendantBlocks, ∃ decoded,
        block.blockCbor = some decoded ∧ IssuedUnder ctx decoded b) ∧
      (∀ stored, epochContextByEpoch contexts authenticated.anchorBlock.epoch = some stored →
        Agrees stored ctx) ∧
      (epochContextByEpoch contexts authenticated.anchorBlock.epoch = none →
        forgedHeader.newEpochContext = some ctx) ∧
      epochContextByEpoch store'.clientState.epochContexts authenticated.anchorBlock.epoch =
        some ctx := by
  obtain ⟨store', hstored⟩ := exists_store_of_rootAfter forgedHeader_stored
  exact ⟨store', hstored,
    counted_pools_are_stored_or_first_named forgedHeader_verified forgedHeader_clean hstored⟩

end Sample

end cardano_ibc.probabilistic
