-- Whether time goes forward for the Cosmos-side client. It never compares the slots of two blocks,
-- so time goes forward as far as slots grow along the chain whose blocks it is shown.
import CardanoIbc.Cosmos.Misbehaviour
import CardanoIbc.Cosmos.OnChain

namespace cardano_ibc.probabilistic

/-! ## A new client -/

section Start

variable [Texts]

omit [Texts] in
/-- A root that was left out is no hash that could have a wrong length. -/
def ConsensusState.ValidateBasic (cs : ConsensusState) : Except Err Unit := do
  require (cs.timestamp != 0) .ErrInvalidConsensus
  require (cs.ibcStateRoot.isEmpty || cs.ibcStateRoot.length == 32) .ErrInvalidConsensus
  require (!cs.acceptedBlockHash.isEmpty) .ErrInvalidConsensus

def ClientState.initializeCheckpoint (cs : ClientState) (consensusState : ConsensusState) :
    Except Err ClientState := do
  if isZero cs.latestCheckpointHeight then
    return cs.setLatestCheckpoint (cs.latestHeight.getD 0) consensusState.acceptedBlockHash
      consensusState.acceptedEpoch
  else
    require (cs.latestCheckpointHeight.getD 0 == cs.latestHeight.getD 0 &&
      equalFold cs.latestCheckpointBlockHash consensusState.acceptedBlockHash &&
      cs.latestCheckpointEpoch == consensusState.acceptedEpoch) .ErrInvalidClient
    return cs

/-- The store of a client that is created. -/
def Initialize (ctx : Context) (cs : ClientState) (consensusState : ConsensusState) :
    Except Err Store := do
  cs.Validate
  consensusState.ValidateBasic
  let cs ← cs.initializeCheckpoint consensusState
  let store : Store :=
    { clientState := cs, consensusStates := [], processedTimes := [], processedHeights := [],
      iterationKeys := [], scores := [], uniquePools := [], uniqueStakes := [],
      acceptedBlockHashes := [] }
  return store.setConsensus ctx (cs.latestHeight.getD 0) consensusState

/-- A new client trusts the block at its one height. -/
structure Created (cs : ClientState) (first : ConsensusState) (store : Store) : Prop where
  systemStart : store.clientState.systemStartUnixNs = cs.systemStartUnixNs
  slotLength : store.clientState.slotLengthNs = cs.slotLengthNs
  set : isZero store.clientState.latestCheckpointHeight = false
  states : ∀ height s, store.consensusState height = some s →
    height = store.clientState.latestCheckpointHeight.getD 0 ∧ s = first

theorem Initialize_created {ctx : Context} {cs : ClientState} {first : ConsensusState}
    {store : Store} (h : Initialize ctx cs first = .ok store) : Created cs first store := by
  simp only [Initialize, ClientState.Validate, bind_eq_ok, require_eq_ok, pure_eq_ok] at h
  obtain ⟨_, ⟨_, -, _, -, _, hnonzero, -⟩, _, -, cs', hcheckpoint, rfl⟩ := h
  have hnonzero : isZero cs.latestHeight = false := by simpa using hnonzero
  have hstates : ∀ height s,
      table.get (table.set [] (cs'.latestHeight.getD 0) first) height = some s →
      height = cs'.latestHeight.getD 0 ∧ s = first := by
    intro height s hs
    rw [table.get_set] at hs
    split at hs
    · rename_i heq
      exact ⟨heq.symm, (Option.some.inj hs).symm⟩
    · cases hs
  unfold ClientState.initializeCheckpoint at hcheckpoint
  split at hcheckpoint
  · simp only [pure_eq_ok] at hcheckpoint
    subst hcheckpoint
    exact ⟨rfl, rfl, hnonzero, hstates⟩
  · rename_i hset
    simp only [bind_eq_ok, require_eq_ok, pure_eq_ok, Bool.and_eq_true, beq_iff_eq] at hcheckpoint
    obtain ⟨_, ⟨⟨hsame, -⟩, -⟩, rfl⟩ := hcheckpoint
    have hset : isZero cs.latestCheckpointHeight = false := by simpa using hset
    refine ⟨rfl, rfl, hset, fun height s hs => ?_⟩
    show height = cs.latestCheckpointHeight.getD 0 ∧ s = first
    rw [hsame]
    exact hstates height s hs

end Start

/-! ## Slots and times -/

theorem DeriveTimestampFromSlot_toNat {cs : ClientState} {slot time : UInt64}
    (h : cs.DeriveTimestampFromSlot slot = .ok time) :
    0 < cs.slotLengthNs.toNat ∧
      time.toNat = cs.systemStartUnixNs.toNat + slot.toNat * cs.slotLengthNs.toNat := by
  simp only [ClientState.DeriveTimestampFromSlot, bind_eq_ok, require_eq_ok, pure_eq_ok,
    bne_iff_ne, decide_eq_true_eq] at h
  obtain ⟨_, -, _, hlength, _, hfits, rfl⟩ := h
  have hpositive : 0 < cs.slotLengthNs.toNat := by
    refine Nat.pos_of_ne_zero fun hzero => hlength ?_
    exact UInt64.toNat_inj.mp hzero
  have hstart := cs.systemStartUnixNs.toNat_lt
  have hroom : slot.toNat * cs.slotLengthNs.toNat ≤ 2 ^ 64 - 1 - cs.systemStartUnixNs.toNat := by
    refine Nat.le_trans (Nat.mul_le_mul_right _ ?_) (Nat.div_mul_le_self _ cs.slotLengthNs.toNat)
    have hle : cs.systemStartUnixNs ≤ 0xffffffffffffffff := by
      rw [UInt64.le_iff_toNat_le]
      exact Nat.le_of_lt_succ hstart
    rw [UInt64.le_iff_toNat_le, UInt64.toNat_div, UInt64.toNat_sub_of_le _ _ hle] at hfits
    exact hfits
  refine ⟨hpositive, ?_⟩
  rw [UInt64.toNat_add, UInt64.toNat_mul, Nat.mod_eq_of_lt (a := slot.toNat * _) (by omega),
    Nat.mod_eq_of_lt (by omega)]

theorem DeriveTimestampFromSlot_lt {cs : ClientState} {slot slot' time time' : UInt64}
    (h : cs.DeriveTimestampFromSlot slot = .ok time)
    (h' : cs.DeriveTimestampFromSlot slot' = .ok time') (hlt : slot < slot') : time < time' := by
  obtain ⟨hpositive, htime⟩ := DeriveTimestampFromSlot_toNat h
  obtain ⟨-, htime'⟩ := DeriveTimestampFromSlot_toNat h'
  rw [UInt64.lt_iff_toNat_lt] at hlt ⊢
  rw [htime, htime']
  exact Nat.add_lt_add_left (Nat.mul_lt_mul_of_pos_right hlt hpositive) _

/-! ## The blocks of a header -/

/-- The blocks of a header from the trusted block on. -/
def AuthenticatedHeader.path (header : AuthenticatedHeader) : List AuthenticatedBlock :=
  header.bridgeBlocks ++ header.anchorBlock :: header.descendantBlocks

/-- Each block names the one before it. -/
def Linked : Bytes → List AuthenticatedBlock → Prop
  | _, [] => True
  | prevHash, b :: bs => b.prevHash = prevHash ∧ Linked b.hash bs

theorem bridgeContinues_linked {bs rest : List AuthenticatedBlock} {prevHash last : Bytes}
    {height next : UInt64} (h : bridgeContinues bs prevHash height = .ok (last, next))
    (hrest : Linked last rest) : Linked prevHash (bs ++ rest) := by
  induction bs generalizing prevHash height with
  | nil =>
    cases h
    exact hrest
  | cons b bs ih =>
    simp only [bridgeContinues, bind_eq_ok, require_eq_ok, beq_iff_eq] at h
    obtain ⟨_, hprev, _, -, h⟩ := h
    exact ⟨hprev, ih h⟩

section Blocks

variable [Texts]

theorem tallyBlock_follows {ctx : EpochContext} {cutoff epoch : UInt64} {tally next : Tally}
    {b : AuthenticatedBlock} (h : tallyBlock ctx cutoff epoch tally b = .ok next) :
    (b.prevHash = tally.prevHash ∧ b.height = tally.prevHeight + 1) ∧
      next.prevHash = b.hash ∧ next.prevHeight = b.height := by
  simp only [tallyBlock, bind_eq_ok, require_eq_ok, beq_iff_eq] at h
  obtain ⟨_, hprev, _, hheight, _, -, h⟩ := h
  refine ⟨⟨hprev, hheight⟩, ?_⟩
  split at h
  · simp only [pure_eq_ok] at h
    rw [← h]
    exact ⟨rfl, rfl⟩
  · simp only [bind_eq_ok, pure_eq_ok, Prod.exists] at h
    obtain ⟨_, _, -, rfl⟩ := h
    split <;> exact ⟨rfl, rfl⟩

theorem tallyBlock_linked {ctx : EpochContext} {cutoff epoch : UInt64} {tally out : Tally}
    {bs : List AuthenticatedBlock} (h : bs.foldlM (tallyBlock ctx cutoff epoch) tally = .ok out) :
    Linked tally.prevHash bs := by
  induction bs generalizing tally with
  | nil => trivial
  | cons b bs ih =>
    simp only [List.foldlM_cons, bind_eq_ok] at h
    obtain ⟨next, hnext, h⟩ := h
    obtain ⟨⟨hprev, -⟩, hhash, -⟩ := tallyBlock_follows hnext
    exact ⟨hprev, hhash ▸ ih h⟩

variable [Native]

theorem Verified.linked {store : Store} {header : ProbabilisticHeader}
    {trusted : TrustedBlockState} {contexts merged : List EpochContext}
    {authenticated : AuthenticatedHeader} {ctx : EpochContext} {metrics : Metrics}
    (v : Verified store header trusted contexts merged authenticated ctx metrics) :
    Linked trusted.blockHash authenticated.path := by
  have hmetrics := v.metrics_eq
  simp only [ClientState.computeHeaderSecurityMetrics, bind_eq_ok] at hmetrics
  obtain ⟨_, -, _, -, cutoff, -, tally, htally, -⟩ := hmetrics
  have hcontinuity := v.continuity
  simp only [verifyBridgeContinuity, bind_eq_ok, require_eq_ok, beq_iff_eq, Prod.exists]
    at hcontinuity
  obtain ⟨last, next, hbridge, _, hanchor, -⟩ := hcontinuity
  exact bridgeContinues_linked hbridge ⟨hanchor, tallyBlock_linked htally⟩

/-- What the client takes from a block. -/
structure ReadFrom (cs : ClientState) (block : ProbabilisticBlock) (b : AuthenticatedBlock)
    (decoded : LedgerBlock) : Prop where
  cbor : block.blockCbor = some decoded
  height : block.height = some b.height
  slot : block.slot = b.slot
  decoded_slot : decoded.header.slot = b.slot
  hash : decoded.hash = b.hash
  prevHash : decoded.header.prevHash = b.prevHash
  timestamp : cs.DeriveTimestampFromSlot b.slot = .ok b.timestamp

theorem authenticateProbabilisticBlock_reads {cs : ClientState} {block : ProbabilisticBlock}
    {contexts : List EpochContext} {b : AuthenticatedBlock}
    (h : cs.authenticateProbabilisticBlock block contexts = .ok b) :
    ∃ decoded, ReadFrom cs block b decoded := by
  simp only [ClientState.authenticateProbabilisticBlock, bind_eq_ok, require_eq_ok, found_eq_ok,
    pure_eq_ok, Prod.exists, beq_iff_eq] at h
  obtain ⟨height, hheight, decoded, hdecoded, _, -, _, hnumber, _, hslot, time, htime, _, -, ctx, -,
    _, -, _, -, poolID, vrfKeyHash, -, entry, -, _, -, rfl⟩ := h
  exact ⟨decoded, hdecoded, by rw [hheight, hnumber], hslot.symm, rfl, rfl, rfl,
    by rw [hslot]; exact htime⟩

omit [Texts] [Native] in
theorem forall₂_of_mapM {α β : Type} {f : α → Except Err β} {xs : List α} {ys : List β}
    (h : xs.mapM f = .ok ys) : List.Forall₂ (fun x y => f x = .ok y) xs ys := by
  induction xs generalizing ys with
  | nil =>
    simp only [List.mapM_nil, pure_eq_ok] at h
    subst h
    exact .nil
  | cons x xs ih =>
    simp only [List.mapM_cons, bind_eq_ok, pure_eq_ok] at h
    obtain ⟨y, hy, rest, hrest, rfl⟩ := h
    exact .cons hy (ih hrest)

omit [Texts] [Native] in
theorem exists_left_of_forall₂ {α β : Type} {R : α → β → Prop} {xs : List α} {ys : List β}
    (h : List.Forall₂ R xs ys) {y : β} (hy : y ∈ ys) : ∃ x ∈ xs, R x y := by
  induction h with
  | nil => cases hy
  | cons hxy _ ih =>
    rcases List.mem_cons.mp hy with rfl | hy
    · exact ⟨_, List.mem_cons_self, hxy⟩
    · obtain ⟨x, hx, hR⟩ := ih hy
      exact ⟨x, List.mem_cons_of_mem _ hx, hR⟩

/-- The blocks of a header are authenticated one by one, its anchor among them. -/
theorem authenticateHeaderBlocksWithContexts_spec {cs : ClientState} {header : ProbabilisticHeader}
    {contexts : List EpochContext} {authenticated : AuthenticatedHeader}
    (h : cs.authenticateHeaderBlocksWithContexts header contexts = .ok authenticated) :
    List.Forall₂ (fun block b => cs.authenticateProbabilisticBlock block contexts = .ok b)
        header.blocks authenticated.path ∧
      ∃ anchor, anchorOf header = .ok (anchor, authenticated.anchorBlock.height) := by
  simp only [ClientState.authenticateHeaderBlocksWithContexts, bind_eq_ok, Prod.exists] at h
  obtain ⟨anchor, height, hanchor, anchorBlock, hauthentic, bridge, hbridge, descendants,
    hdescendants, h⟩ := h
  have heq : authenticated = ⟨anchorBlock, bridge, descendants⟩ := by
    split at h
    · simp only [bind_eq_ok, pure_eq_ok] at h
      obtain ⟨-, -, rfl⟩ := h
      rfl
    · simp only [pure_eq_ok] at h
      exact h.symm
  subst heq
  obtain ⟨hshown, hheight⟩ : header.anchorBlock = some anchor ∧ anchor.height = some height := by
    simp only [anchorOf, bind_eq_ok, found_eq_ok, pure_eq_ok, Prod.mk.injEq] at hanchor
    obtain ⟨_, hfound, _, hheight, rfl, rfl⟩ := hanchor
    exact ⟨hfound, hheight⟩
  obtain ⟨_, hread⟩ := authenticateProbabilisticBlock_reads hauthentic
  have hsame : height = anchorBlock.height := Option.some.inj (hheight.symm.trans hread.height)
  refine ⟨?_, anchor, hsame ▸ hanchor⟩
  rw [ProbabilisticHeader.blocks, hshown, List.append_assoc]
  exact List.rel_append (forall₂_of_mapM hbridge) (.cons hauthentic (forall₂_of_mapM hdescendants))

/-! ## What is stored -/

/-- What a header makes of the store: its anchor is the block that is trusted next, and only a
state with its time can be new. -/
structure MovesTo (store store' : Store) (anchor : AuthenticatedBlock) : Prop where
  systemStart : store'.clientState.systemStartUnixNs = store.clientState.systemStartUnixNs
  slotLength : store'.clientState.slotLengthNs = store.clientState.slotLengthNs
  height : store'.clientState.latestCheckpointHeight = some anchor.height
  hash : store'.clientState.latestCheckpointBlockHash = anchor.hash
  states : ∀ height s, store'.consensusState height = some s →
    store.consensusState height = some s ∨ height = anchor.height ∧ s.timestamp = anchor.timestamp

omit [Texts] [Native] in
theorem keepContexts_start {store : Store} {merged : List EpochContext} {epoch : UInt64}
    {cs : ClientState} (h : keepContexts store merged epoch = .ok cs) :
    cs.systemStartUnixNs = store.clientState.systemStartUnixNs ∧
      cs.slotLengthNs = store.clientState.slotLengthNs := by
  simp only [keepContexts, syncCurrentEpochFields, bind_eq_ok, pure_eq_ok] at h
  obtain ⟨_, -, rfl⟩ := h
  exact ⟨rfl, rfl⟩

omit [Texts] [Native] in
theorem pruneOldestConsensusState_spec {ctx : Context} {store pruned : Store}
    (h : pruneOldestConsensusState ctx store = .ok pruned) :
    pruned.clientState = store.clientState ∧
      ∀ height s, pruned.consensusState height = some s → store.consensusState height = some s := by
  unfold pruneOldestConsensusState at h
  split at h
  · simp only [pure_eq_ok] at h
    subst h
    exact ⟨rfl, fun _ _ hs => hs⟩
  · simp only [bind_eq_ok] at h
    obtain ⟨_, -, h⟩ := h
    split at h
    · simp only [pure_eq_ok] at h
      subst h
      exact ⟨rfl, fun _ _ hs => table.get_of_get_erase hs⟩
    · simp only [pure_eq_ok] at h
      subst h
      exact ⟨rfl, fun _ _ hs => hs⟩

theorem UpdateState_moves {context : Context} {store store' : Store}
    {header : ProbabilisticHeader} {contexts merged : List EpochContext}
    {authenticated : AuthenticatedHeader} (h : UpdateState context store header = .ok store')
    (hnormalized : store.clientState.normalizedEpochContexts = .ok contexts)
    (hmerges : mergeEpochContexts contexts header.newEpochContext = .ok merged)
    (hauthenticates : store.clientState.authenticateHeaderBlocksWithContexts header merged =
      .ok authenticated) : MovesTo store store' authenticated.anchorBlock := by
  obtain ⟨-, anchor, hanchor⟩ := authenticateHeaderBlocksWithContexts_spec hauthenticates
  simp only [UpdateState, hnormalized, hmerges, hauthenticates, bind_eq_ok, found_eq_ok,
    Except.ok.injEq, exists_eq_left'] at h
  obtain ⟨trusted, -, _, -, ctx', -, h⟩ := h
  split at h
  · simp only [persistCheckpoint, bind_eq_ok, pure_eq_ok] at h
    obtain ⟨cs, hcs, rfl⟩ := h
    obtain ⟨hstart, hlength⟩ := keepContexts_start hcs
    exact ⟨hstart, hlength, rfl, rfl, fun _ _ hs => .inl hs⟩
  · simp only [hanchor, bind_eq_ok, pure_eq_ok, Except.ok.injEq, exists_eq_left'] at h
    obtain ⟨pruned, hpruned, root, -, metrics, -, cs, hcs, rfl⟩ := h
    obtain ⟨hclient, hkept⟩ := pruneOldestConsensusState_spec hpruned
    obtain ⟨hstart, hlength⟩ := keepContexts_start hcs
    refine ⟨hstart.trans (congrArg _ hclient), hlength.trans (congrArg _ hclient),
      rfl, rfl, fun height s hs => ?_⟩
    have hs : table.get (table.set pruned.consensusStates authenticated.anchorBlock.height _)
      height = some s := hs
    rw [table.get_set] at hs
    split at hs
    · rename_i heq
      exact .inr ⟨heq.symm, by rw [← Option.some.inj hs]⟩
    · exact .inl (hkept height s hs)

omit [Native] in
/-- Once there is a checkpoint, it is the block that an update has to go on from. -/
theorem trustedForUpdate_checkpoint {store : Store} {header : ProbabilisticHeader}
    {trusted : TrustedBlockState} (h : trustedForUpdate store header = .ok trusted)
    (hset : isZero store.clientState.latestCheckpointHeight = false) :
    trusted.blockHash = store.clientState.latestCheckpointBlockHash ∧
      ∃ anchor height, anchorOf header = .ok (anchor, height) ∧
        store.clientState.latestCheckpointHeight.getD 0 < height := by
  simp only [trustedForUpdate, latestTrustedBlockState, trustedBlockStateAtHeight, hset,
    bind_eq_ok, require_eq_ok, Bool.false_eq_true, if_false, Bool.not_false, Bool.true_and,
    beq_self_eq_true, if_true, Prod.exists, decide_eq_true_eq] at h
  obtain ⟨_, -, _, -, anchor, height, hanchor, _, hlater, _, -, _, -, _, -, h⟩ := h
  refine ⟨?_, anchor, height, hanchor, hlater⟩
  split at h
  · simp only [bind_eq_ok, pure_eq_ok] at h
    obtain ⟨_, -, _, -, rfl⟩ := h
    rfl
  · simp only [pure_eq_ok] at h
    rw [← h]

end Blocks

/-! ## A chain in which slots grow -/

section Chain

variable {chain : Set LedgerBlock}

/-- Of two blocks of the chain one of which names the other, the later has the greater slot. -/
def SlotsGrow (chain : Set LedgerBlock) : Prop :=
  ∀ b ∈ chain, ∀ next ∈ chain, next.header.prevHash = b.hash → b.header.slot < next.header.slot

/-- Blocks of the chain that each name the one before them have greater and greater slots. -/
theorem Linked.slots_increase (hgrow : SlotsGrow chain) {bs : List AuthenticatedBlock}
    {first : LedgerBlock} (hfirst : first ∈ chain) (hlinked : Linked first.hash bs)
    (hshown : ∀ b ∈ bs, ∃ decoded ∈ chain, decoded.header.slot = b.slot ∧ decoded.hash = b.hash ∧
      decoded.header.prevHash = b.prevHash) :
    (∀ b ∈ bs, first.header.slot < b.slot) ∧ bs.Pairwise fun a b => a.slot < b.slot := by
  induction bs generalizing first with
  | nil => exact ⟨by simp, .nil⟩
  | cons b bs ih =>
    obtain ⟨hprev, hrest⟩ := hlinked
    obtain ⟨decoded, hdecoded, hslot, hhash, hprevHash⟩ := hshown b List.mem_cons_self
    have hlt : first.header.slot < b.slot := by
      rw [← hslot]
      exact hgrow first hfirst decoded hdecoded (hprevHash.trans hprev)
    obtain ⟨hafter, hpairwise⟩ := ih hdecoded (hhash ▸ hrest)
      fun c hc => hshown c (List.mem_cons_of_mem b hc)
    rw [hslot] at hafter
    refine ⟨fun c hc => ?_, List.pairwise_cons.mpr ⟨hafter, hpairwise⟩⟩
    rcases List.mem_cons.mp hc with rfl | hc
    · exact hlt
    · exact UInt64.lt_trans hlt (hafter c hc)

/-- What a header shows of Cardano. -/
def ProbabilisticHeader.shown (header : ProbabilisticHeader) : List LedgerBlock :=
  header.blocks.filterMap ProbabilisticBlock.blockCbor

/-- The trusted block is of the chain, nothing stored is later, and what is stored at greater
heights is later. -/
structure InOrder (chain : Set LedgerBlock) (store : Store) : Prop where
  set : isZero store.clientState.latestCheckpointHeight = false
  latest : ∃ b ∈ chain, b.hash = store.clientState.latestCheckpointBlockHash ∧
    ∃ time, store.clientState.DeriveTimestampFromSlot b.header.slot = .ok time ∧
      ∀ height s, store.consensusState height = some s →
        height ≤ store.clientState.latestCheckpointHeight.getD 0 ∧ s.timestamp ≤ time
  increasing : ∀ height height' s s', store.consensusState height = some s →
    store.consensusState height' = some s' → height < height' → s.timestamp < s'.timestamp

theorem Created.inOrder {cs : ClientState} {first : ConsensusState} {store : Store}
    (h : Created cs first store)
    (hfirst : ∃ b ∈ chain, b.hash = store.clientState.latestCheckpointBlockHash ∧
      cs.DeriveTimestampFromSlot b.header.slot = .ok first.timestamp) : InOrder chain store := by
  obtain ⟨b, hb, hhash, htime⟩ := hfirst
  refine ⟨h.set, ⟨b, hb, hhash, first.timestamp, ?_, ?_⟩, ?_⟩
  · rw [← htime]
    simp only [ClientState.DeriveTimestampFromSlot, h.systemStart, h.slotLength]
  · intro height s hs
    obtain ⟨rfl, rfl⟩ := h.states height s hs
    exact ⟨UInt64.le_refl _, UInt64.le_refl _⟩
  · intro height height' s s' hs hs' hlt
    obtain ⟨rfl, -⟩ := h.states height s hs
    obtain ⟨rfl, -⟩ := h.states height' s' hs'
    exact absurd hlt (UInt64.lt_irrefl _)

variable [Texts] [Native]

/-- A verified header whose blocks are of the chain goes on from the trusted block, with greater
and greater slots. -/
theorem InOrder.header {store : Store} (h : InOrder chain store) (hgrow : SlotsGrow chain)
    {header : ProbabilisticHeader} (hshown : ∀ b ∈ header.shown, b ∈ chain)
    {trusted : TrustedBlockState} {contexts merged : List EpochContext}
    {authenticated : AuthenticatedHeader} {ctx : EpochContext} {metrics : Metrics}
    (v : Verified store header trusted contexts merged authenticated ctx metrics) :
    (header.blocks.map ProbabilisticBlock.slot).Pairwise (· < ·) ∧
      ∃ b ∈ chain, b.hash = store.clientState.latestCheckpointBlockHash ∧
        (∃ time, store.clientState.DeriveTimestampFromSlot b.header.slot = .ok time ∧
          ∀ height s, store.consensusState height = some s →
            height ≤ store.clientState.latestCheckpointHeight.getD 0 ∧ s.timestamp ≤ time) ∧
        b.header.slot < authenticated.anchorBlock.slot := by
  obtain ⟨b, hb, hhash, htime⟩ := h.latest
  obtain ⟨htrusted, -⟩ := trustedForUpdate_checkpoint v.trusted_found h.set
  obtain ⟨hblocks, -⟩ := authenticateHeaderBlocksWithContexts_spec v.authenticates
  have hreads : List.Forall₂ (fun block b => ∃ decoded, ReadFrom store.clientState block b decoded)
      header.blocks authenticated.path :=
    hblocks.imp fun _ _ => authenticateProbabilisticBlock_reads
  have hof : ∀ b ∈ authenticated.path, ∃ decoded ∈ chain, decoded.header.slot = b.slot ∧
      decoded.hash = b.hash ∧ decoded.header.prevHash = b.prevHash := by
    intro c hc
    obtain ⟨block, hblock, decoded, hread⟩ := exists_left_of_forall₂ hreads hc
    exact ⟨decoded, hshown decoded (List.mem_filterMap.mpr ⟨block, hblock, hread.cbor⟩),
      hread.decoded_slot, hread.hash, hread.prevHash⟩
  obtain ⟨hlater, hpairwise⟩ := Linked.slots_increase hgrow hb
    (hhash ▸ htrusted ▸ v.linked) hof
  refine ⟨?_, b, hb, hhash, htime, hlater _ (by simp [AuthenticatedHeader.path])⟩
  have hslots : header.blocks.map ProbabilisticBlock.slot =
      authenticated.path.map AuthenticatedBlock.slot := by
    rw [← List.forall₂_eq_eq_eq, List.forall₂_map_left_iff, List.forall₂_map_right_iff]
    refine hreads.imp fun _ _ hread => ?_
    obtain ⟨_, hread⟩ := hread
    exact hread.slot
  rw [hslots]
  exact List.pairwise_map.mpr hpairwise

theorem InOrder.step {store store' : Store} (h : InOrder chain store) (hgrow : SlotsGrow chain)
    {context : Context} {header : ProbabilisticHeader} (hshown : ∀ b ∈ header.shown, b ∈ chain)
    (hverified : verifyHeader store header = .ok ())
    (hstored : UpdateState context store header = .ok store') :
    InOrder chain store' ∧ (header.blocks.map ProbabilisticBlock.slot).Pairwise (· < ·) := by
  obtain ⟨trusted, contexts, merged, authenticated, ctx, metrics, v⟩ := verifyHeader_spec hverified
  obtain ⟨hslots, b, hb, hhash, ⟨time, htime, hpast⟩, hlater⟩ := h.header hgrow hshown v
  have hmoves := UpdateState_moves hstored v.normalized v.merges v.authenticates
  obtain ⟨hblocks, anchor, hanchor⟩ := authenticateHeaderBlocksWithContexts_spec v.authenticates
  obtain ⟨block, hblock, hauthentic⟩ := exists_left_of_forall₂ hblocks
    (show authenticated.anchorBlock ∈ authenticated.path by simp [AuthenticatedHeader.path])
  obtain ⟨decoded, hread⟩ := authenticateProbabilisticBlock_reads hauthentic
  have hhigher : store.clientState.latestCheckpointHeight.getD 0 <
      authenticated.anchorBlock.height := by
    obtain ⟨-, _, _, hanchor', hhigher⟩ := trustedForUpdate_checkpoint v.trusted_found h.set
    rw [hanchor] at hanchor'
    cases hanchor'
    exact hhigher
  have hnow := DeriveTimestampFromSlot_lt htime hread.timestamp hlater
  refine ⟨⟨?_, ⟨decoded, ?_, ?_, authenticated.anchorBlock.timestamp, ?_, ?_⟩, ?_⟩, hslots⟩
  · rw [hmoves.height, isZero, Option.getD_some, beq_eq_false_iff_ne]
    exact Ne.symm (UInt64.ne_of_lt (UInt64.lt_of_le_of_lt (UInt64.zero_le) hhigher))
  · exact hshown decoded (List.mem_filterMap.mpr ⟨block, hblock, hread.cbor⟩)
  · rw [hread.hash, hmoves.hash]
  · rw [hread.decoded_slot, ← hread.timestamp]
    simp only [ClientState.DeriveTimestampFromSlot, hmoves.systemStart, hmoves.slotLength]
  · intro height s hs
    rw [hmoves.height]
    rcases hmoves.states height s hs with hs | ⟨rfl, htimestamp⟩
    · obtain ⟨hle, htime⟩ := hpast height s hs
      exact ⟨UInt64.le_of_lt (UInt64.lt_of_le_of_lt hle hhigher),
        UInt64.le_of_lt (UInt64.lt_of_le_of_lt htime hnow)⟩
    · exact ⟨UInt64.le_refl _, htimestamp ▸ UInt64.le_refl _⟩
  · intro height height' s s' hs hs' hlt
    rcases hmoves.states height s hs with hs | ⟨rfl, -⟩
    · rcases hmoves.states height' s' hs' with hs' | ⟨-, htimestamp⟩
      · exact h.increasing height height' s s' hs hs' hlt
      · rw [htimestamp]
        exact UInt64.lt_of_le_of_lt (hpast height s hs).2 hnow
    · -- nothing is stored above the anchor
      rcases hmoves.states height' s' hs' with hs' | ⟨rfl, -⟩
      · exact absurd (UInt64.lt_trans hlt (UInt64.lt_of_le_of_lt (hpast height' s' hs').1 hhigher))
          (UInt64.lt_irrefl _)
      · exact absurd hlt (UInt64.lt_irrefl _)

/-- The headers of a run of updates, the last one first, each verified, no misbehaviour, and
stored. -/
inductive Updates (start : Store) : List ProbabilisticHeader → Store → Prop
  | start : Updates start [] start
  | step {headers : List ProbabilisticHeader} {store store' : Store}
      {header : ProbabilisticHeader} {context : Context} (before : Updates start headers store)
      (verified : verifyHeader store header = .ok ())
      (clean : CheckForMisbehaviour store header = false)
      (stored : UpdateState context store header = .ok store') :
      Updates start (header :: headers) store'

theorem Updates.inOrder {start store : Store} {headers : List ProbabilisticHeader}
    (hrun : Updates start headers store) (hstart : InOrder chain start) (hgrow : SlotsGrow chain)
    (hshown : ∀ header ∈ headers, ∀ b ∈ header.shown, b ∈ chain) :
    InOrder chain store ∧ ∀ header ∈ headers,
      (header.blocks.map ProbabilisticBlock.slot).Pairwise (· < ·) := by
  induction hrun with
  | start => exact ⟨hstart, by simp⟩
  | step _ verified _ stored ih =>
    obtain ⟨horder, hslots⟩ := ih fun header hheader =>
      hshown header (List.mem_cons_of_mem _ hheader)
    obtain ⟨horder', hslots'⟩ := horder.step hgrow (hshown _ List.mem_cons_self) verified stored
    exact ⟨horder', List.forall_mem_cons.mpr ⟨hslots', hslots⟩⟩

/-- If slots grow along the chain that a client is shown, and the client was created with the time
of the block it trusts first, then slots grow along every header it takes, and what is stored at
greater heights is later, so a timeout that has passed at one height has passed at all greater
ones. -/
theorem time_moves_forward_on_growing_chains (hgrow : SlotsGrow chain) {context : Context}
    {cs : ClientState} {first : ConsensusState} {start store : Store}
    {headers : List ProbabilisticHeader} (hcreated : Initialize context cs first = .ok start)
    (hfirst : ∃ b ∈ chain, b.hash = start.clientState.latestCheckpointBlockHash ∧
      cs.DeriveTimestampFromSlot b.header.slot = .ok first.timestamp)
    (hshown : ∀ header ∈ headers, ∀ b ∈ header.shown, b ∈ chain)
    (hrun : Updates start headers store) :
    (∀ header ∈ headers, (header.blocks.map ProbabilisticBlock.slot).Pairwise (· < ·)) ∧
      ∀ height height' s s', store.consensusState height = some s →
        store.consensusState height' = some s' → height < height' →
        s.timestamp < s'.timestamp ∧ ∀ timeout, timeout ≤ s.timestamp → timeout ≤ s'.timestamp := by
  obtain ⟨horder, hslots⟩ :=
    hrun.inOrder ((Initialize_created hcreated).inOrder hfirst) hgrow hshown
  refine ⟨hslots, fun height height' s s' hs hs' hlt => ?_⟩
  have hearlier := horder.increasing height height' s s' hs hs' hlt
  exact ⟨hearlier, fun timeout hpassed => UInt64.le_of_lt (UInt64.lt_of_le_of_lt hpassed hearlier)⟩

end Chain

/-! ### A chain with growing slots, and one with slots that fall -/

section Sample

local instance timeTexts : Texts := asciiTexts

local instance timeNative : Native := symbolicNative

/-- The state of a client that trusts a block of this slot. -/
def timedState (slot : UInt64) : ConsensusState where
  timestamp := 1506203091000000000 + slot * 1000000000
  ibcStateRoot := List.replicate 32 1
  acceptedBlockHash := utf8 "trusted"
  acceptedEpoch := 11
  uniquePoolsCount := 5
  uniqueStakeBps := 10000
  securityScoreBps := 10000

def timedClient : ClientState := (sampleStore (samplePools 11)).clientState

def timedStore (slot : UInt64) : Store :=
  Store.setConsensus
    { clientState := timedClient, consensusStates := [], processedTimes := [],
      processedHeights := [], iterationKeys := [], scores := [], uniquePools := [],
      uniqueStakes := [], acceptedBlockHashes := [] } sampleNow 100 (timedState slot)

theorem timedStore_created {slot : UInt64} (h : (timedState slot).ValidateBasic = .ok ()) :
    Initialize sampleNow timedClient (timedState slot) = .ok (timedStore slot) := by
  have hvalid : timedClient.Validate = .ok () := by decide +kernel
  simp only [Initialize, hvalid, h, bind_eq_ok, pure_eq_ok]
  exact ⟨(), trivial, (), trivial, timedClient, rfl, rfl⟩

/-- The times that are stored at both heights after an update. -/
def timesAfter (store : Store) (header : ProbabilisticHeader) : Option (List UInt64) :=
  (UpdateState sampleNow store header).toOption.bind fun s => do
    return [(← s.consensusState 100).timestamp, (← s.consensusState 101).timestamp]

theorem updates_of_timesAfter {store : Store} {header : ProbabilisticHeader} {t t' : UInt64}
    (hverified : verifyHeader store header = .ok ())
    (hclean : CheckForMisbehaviour store header = false)
    (h : timesAfter store header = some [t, t']) :
    ∃ store' s s', Updates store [header] store' ∧ store'.consensusState 100 = some s ∧
      s.timestamp = t ∧ store'.consensusState 101 = some s' ∧ s'.timestamp = t' := by
  unfold timesAfter at h
  cases hupdate : UpdateState sampleNow store header with
  | error e => simp [hupdate, Except.toOption] at h
  | ok store' =>
    simp only [hupdate, Except.toOption, Option.bind_some, bind_eq_some, pure_eq_some] at h
    obtain ⟨s, hs, s', hs', h⟩ := h
    cases h
    exact ⟨store', s, s', .step .start hverified hclean hupdate, hs, rfl, hs', rfl⟩

/-- The trusted block, which was made in slot 2000, and the blocks of the honest header. -/
def honestChain : List LedgerBlock :=
  { sampleLedgerBlock emptyBody 0 with
    header := { (sampleLedgerBlock emptyBody 0).header with prevHash := utf8 "before" } } ::
  honestHeader.shown

theorem honestHeader_taken :
    verifyHeader (timedStore 2000) honestHeader = .ok () ∧
      CheckForMisbehaviour (timedStore 2000) honestHeader = false := by
  decide +kernel

theorem an_honest_header_is_later :
    ∃ store' s s', Updates (timedStore 2000) [honestHeader] store' ∧
      store'.consensusState 100 = some s ∧ store'.consensusState 101 = some s' ∧
      (honestHeader.blocks.map ProbabilisticBlock.slot).Pairwise (· < ·) ∧
      s.timestamp < s'.timestamp := by
  obtain ⟨store', s, s', hrun, hs, -, hs', -⟩ := updates_of_timesAfter
    honestHeader_taken.1 honestHeader_taken.2
    (show timesAfter (timedStore 2000) honestHeader =
      some [1506205091000000000, 1506205092000000000] by decide +kernel)
  have hgrow : SlotsGrow { b | b ∈ honestChain } := by
    show ∀ b ∈ honestChain, ∀ next ∈ honestChain, _
    decide +kernel
  obtain ⟨hslots, htimes⟩ := time_moves_forward_on_growing_chains hgrow
    (timedStore_created (by decide)) ⟨_, List.mem_cons_self, rfl, by decide⟩
    (by
      intro header hheader b hb
      rw [List.mem_singleton.mp hheader] at hb
      exact List.mem_cons_of_mem _ hb) hrun
  exact ⟨store', s, s', hrun, hs, hs', hslots _ List.mem_cons_self,
    (htimes 100 101 s s' hs hs' (by decide)).1⟩

/-- The same block made in another slot. -/
def inSlot (slot : UInt64) (block : ProbabilisticBlock) : ProbabilisticBlock :=
  { block with
    slot
    timestamp := 1506203091000000000 + slot * 1000000000
    blockCbor := block.blockCbor.map fun b =>
      let proof := b.header.vrfKey ++ mkInputVrf slot (List.replicate 32 7)
      { b with header := { b.header with slot, vrfResult := some (proof, proof) } } }

/-- Each block of this header is made in the slot before that of the block it follows. -/
def backwardHeader : ProbabilisticHeader :=
  { honestHeader with
    anchorBlock := some (inSlot 2499 (sampleBlock honestBody 1))
    descendantBlocks := (List.range 24).map fun i =>
      inSlot (2498 - i.toUInt64) (sampleBlock emptyBody (i + 2)) }

/-- A client that trusts a block of slot 2600 takes a header whose blocks go back from slot 2499 to
2475: a timeout that has passed at height 100 has not passed at height 101. -/
theorem a_header_goes_back_in_time :
    Initialize sampleNow timedClient (timedState 2600) = .ok (timedStore 2600) ∧
      ∃ store' s s', Updates (timedStore 2600) [backwardHeader] store' ∧
        backwardHeader.blocks.map ProbabilisticBlock.slot =
          (List.range 25).map (fun i => 2499 - i.toUInt64) ∧
        ¬ (backwardHeader.blocks.map ProbabilisticBlock.slot).Pairwise (· < ·) ∧
        store'.consensusState 100 = some s ∧ store'.consensusState 101 = some s' ∧
        ¬ s.timestamp < s'.timestamp ∧
        1506205690000000000 ≤ s.timestamp ∧ ¬ 1506205690000000000 ≤ s'.timestamp := by
  obtain ⟨store', s, s', hrun, hs, ht, hs', ht'⟩ := updates_of_timesAfter
    (show verifyHeader (timedStore 2600) backwardHeader = .ok () by decide +kernel)
    (show CheckForMisbehaviour (timedStore 2600) backwardHeader = false by decide +kernel)
    (show timesAfter (timedStore 2600) backwardHeader =
      some [1506205691000000000, 1506205590000000000] by decide +kernel)
  refine ⟨timedStore_created (by decide), store', s, s', hrun, by decide +kernel,
    by decide +kernel, hs, hs', ?_⟩
  rw [ht, ht']
  decide

end Sample

end cardano_ibc.probabilistic
