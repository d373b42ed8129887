-- What freezes the Cosmos-side client: misbehaviour_handle.go and misbehavour.go. Two blocks of one
-- height do, and so does a context that differs from the one stored for its epoch.
import CardanoIbc.Cosmos.StoredContext

namespace cardano_ibc.probabilistic

/-! ## The message and its checks -/

/-- Two headers that are to contradict each other. A message without one of them is refused before
the client sees it. -/
structure Misbehaviour where
  probabilisticHeader1 : ProbabilisticHeader
  probabilisticHeader2 : ProbabilisticHeader

inductive ClientMessage where
  | header (header : ProbabilisticHeader)
  | misbehaviour (misbehaviour : Misbehaviour)

def ClientMessage.headers : ClientMessage → List ProbabilisticHeader
  | .header h => [h]
  | .misbehaviour m => [m.probabilisticHeader1, m.probabilisticHeader2]

/-- The blocks of a header, in the order the code goes through them. -/
def ProbabilisticHeader.blocks (header : ProbabilisticHeader) : List ProbabilisticBlock :=
  header.bridgeBlocks ++ header.anchorBlock.toList ++ header.descendantBlocks

section Checks

variable [Texts]

/-- Headers of one height are compared by their anchors only. -/
def headersConflict (header1 header2 : ProbabilisticHeader) : Bool :=
  match header1.anchorBlock, header2.anchorBlock with
  | some anchor1, some anchor2 =>
    if anchor1.height = anchor2.height then !equalFold anchor1.hash anchor2.hash
    else
      (collectHeaderBlocksByHeight header1).any fun (height, hash1) =>
        match table.get (collectHeaderBlocksByHeight header2) height with
        | none => false
        | some hash2 => !equalFold hash1 hash2
  -- the code stops here; a header that was verified has its anchor
  | _, _ => false

def headersEpochContextConflict (header1 header2 : ProbabilisticHeader) : Bool :=
  match header1.newEpochContext, header2.newEpochContext with
  | some ctx1, some ctx2 => ctx1.epoch == ctx2.epoch && !epochContextsEqual ctx1 ctx2
  | _, _ => false

/-- The two headers contradict each other, or one of them what is stored. -/
def Misbehaviour.conflicts (m : Misbehaviour) (store : Store) : Bool :=
  headersConflict m.probabilisticHeader1 m.probabilisticHeader2 ||
    headersEpochContextConflict m.probabilisticHeader1 m.probabilisticHeader2 ||
    headerConflictsWithStoredConsensus store m.probabilisticHeader1 ||
    headerConflictsWithStoredConsensus store m.probabilisticHeader2 ||
    store.clientState.headerEpochContextConflictsWithStored m.probabilisticHeader1 ||
    store.clientState.headerEpochContextConflictsWithStored m.probabilisticHeader2

def ClientMessage.CheckForMisbehaviour (msg : ClientMessage) (store : Store) : Bool :=
  match msg with
  | .header h => probabilistic.CheckForMisbehaviour store h
  | .misbehaviour m => m.conflicts store

variable [Native]

def verifyMisbehaviour (store : Store) (m : Misbehaviour) : Except Err Unit := do
  verifyHeaderWithMode store m.probabilisticHeader1 false
  verifyHeaderWithMode store m.probabilisticHeader2 false
  require (m.conflicts store) .ErrInvalidMisbehaviour

def VerifyClientMessage (store : Store) : ClientMessage → Except Err Unit
  | .header header => verifyHeader store header
  | .misbehaviour m => verifyMisbehaviour store m

end Checks

/-! ## What a message that freezes the client shows -/

section Law

variable [Texts]

/-- The contexts a header is verified under: the stored ones, with its own put in. -/
def contextsFor (store : Store) (header : ProbabilisticHeader) : Except Err (List EpochContext) := do
  let contexts ← store.clientState.normalizedEpochContexts
  mergeEpochContexts contexts header.newEpochContext

/-- Without a context of its own a header is verified under what is stored. -/
theorem contextsFor_none {store : Store} {header : ProbabilisticHeader}
    (h : header.newEpochContext = none) :
    contextsFor store header = store.clientState.normalizedEpochContexts := by
  unfold contextsFor
  cases hnormalized : store.clientState.normalizedEpochContexts with
  | error e => rfl
  | ok contexts =>
    have hnormal := normalizeEpochContexts_normal hnormalized
    have hbase : normalizeEpochContexts contexts = .ok contexts := by
      simpa [normalizeEpochContexts] using
        Normal.normalizeFrom (show Normal ([] ++ contexts) from hnormal)
    show mergeEpochContexts contexts header.newEpochContext = .ok contexts
    rw [h, mergeEpochContexts, hbase]
    rfl

/-- Two blocks of one height with different hashes: of two headers of the message, or of one of
them and of the chain as it was accepted. -/
def BlocksConflict (store : Store) (msg : ClientMessage) : Prop :=
  (∃ header1 ∈ msg.headers, ∃ header2 ∈ msg.headers, ∃ block1 ∈ header1.blocks,
      ∃ block2 ∈ header2.blocks, ∃ height, block1.height = some height ∧
        block2.height = some height ∧ equalFold block1.hash block2.hash = false) ∨
    ∃ header ∈ msg.headers, ∃ block ∈ header.blocks, ∃ height accepted,
      block.height = some height ∧ store.consensusState height = some accepted ∧
        equalFold accepted.acceptedBlockHash block.hash = false

/-- Two contexts of one epoch that are not equal: of two headers of the message, or of one of them
and of what is stored. -/
def ContextsConflict (store : Store) (msg : ClientMessage) : Prop :=
  ∃ header ∈ msg.headers, ∃ ctx, header.newEpochContext = some ctx ∧
    ((∃ other ∈ msg.headers, ∃ ctx', other.newEpochContext = some ctx' ∧ ctx'.epoch = ctx.epoch ∧
        epochContextsEqual ctx' ctx = false) ∨
      ∃ contexts stored, store.clientState.normalizedEpochContexts = .ok contexts ∧
        epochContextByEpoch contexts ctx.epoch = some stored ∧
        epochContextsEqual stored ctx = false)

omit [Texts] in
theorem mem_collectHeaderBlocksByHeight {header : ProbabilisticHeader} {height : Height}
    {hash : Bytes} (h : (height, hash) ∈ collectHeaderBlocksByHeight header) :
    ∃ block ∈ header.blocks, block.height = some height ∧ block.hash = hash := by
  unfold collectHeaderBlocksByHeight at h
  rw [← show header.blocks = header.bridgeBlocks ++ header.anchorBlock.toList ++
    header.descendantBlocks from rfl] at h
  have hor : (height, hash) ∈ ([] : List (Height × Bytes)) ∨
      ∃ block ∈ header.blocks, block.height = some height ∧ block.hash = hash := by
    generalize header.blocks = blocks, ([] : List (Height × Bytes)) = start at h ⊢
    induction blocks generalizing start with
    | nil => exact .inl h
    | cons block blocks ih =>
      rcases ih _ h with hstart | ⟨b, hb, hspec⟩
      · beta_reduce at hstart
        cases hheight : block.height with
        | none =>
          rw [hheight] at hstart
          exact .inl hstart
        | some at_height =>
          rw [hheight] at hstart
          rcases table.mem_of_mem_set hstart with heq | hstart
          · cases heq
            exact .inr ⟨block, List.mem_cons_self, hheight, rfl⟩
          · exact .inl hstart
      · exact .inr ⟨b, List.mem_cons_of_mem block hb, hspec⟩
  rcases hor with hstart | hblock
  · cases hstart
  · exact hblock

theorem headerConflictsWithStoredConsensus_spec {store : Store} {header : ProbabilisticHeader}
    (h : headerConflictsWithStoredConsensus store header = true) :
    ∃ block ∈ header.blocks, ∃ height accepted, block.height = some height ∧
      store.consensusState height = some accepted ∧
        equalFold accepted.acceptedBlockHash block.hash = false := by
  simp only [headerConflictsWithStoredConsensus, List.any_eq_true, Prod.exists] at h
  obtain ⟨height, hash, hmem, hconflict⟩ := h
  obtain ⟨block, hblock, hheight, rfl⟩ := mem_collectHeaderBlocksByHeight hmem
  split at hconflict
  · cases hconflict
  · rename_i accepted haccepted
    exact ⟨block, hblock, height, accepted, hheight, haccepted, by simpa using hconflict⟩

theorem headerEpochContextConflictsWithStored_spec {store : Store} {header : ProbabilisticHeader}
    (h : store.clientState.headerEpochContextConflictsWithStored header = true) :
    ∃ ctx, header.newEpochContext = some ctx ∧ ∃ contexts stored,
      store.clientState.normalizedEpochContexts = .ok contexts ∧
        epochContextByEpoch contexts ctx.epoch = some stored ∧
        epochContextsEqual stored ctx = false := by
  unfold ClientState.headerEpochContextConflictsWithStored at h
  split at h
  · cases h
  rename_i ctx hctx
  split at h
  · cases h
  rename_i contexts hcontexts
  split at h
  · cases h
  rename_i stored hstored
  exact ⟨ctx, hctx, contexts, stored, hcontexts, hstored, by simpa using h⟩

theorem headersConflict_spec {header1 header2 : ProbabilisticHeader}
    (h1 : ∃ height, (header1.anchorBlock.bind (·.height)) = some height)
    (h : headersConflict header1 header2 = true) :
    ∃ block1 ∈ header1.blocks, ∃ block2 ∈ header2.blocks, ∃ height, block1.height = some height ∧
      block2.height = some height ∧ equalFold block1.hash block2.hash = false := by
  unfold headersConflict at h
  split at h
  · rename_i anchor1 anchor2 hanchor1 hanchor2
    split at h
    · rename_i hheights
      obtain ⟨height, hheight⟩ := h1
      rw [hanchor1] at hheight
      exact ⟨anchor1, by simp [ProbabilisticHeader.blocks, hanchor1], anchor2,
        by simp [ProbabilisticHeader.blocks, hanchor2], height, hheight, hheights ▸ hheight,
        by simpa using h⟩
    · simp only [List.any_eq_true, Prod.exists] at h
      obtain ⟨height, hash1, hmem1, hconflict⟩ := h
      split at hconflict
      · cases hconflict
      · rename_i hash2 hfound
        obtain ⟨block1, hblock1, hheight1, rfl⟩ := mem_collectHeaderBlocksByHeight hmem1
        obtain ⟨block2, hblock2, hheight2, rfl⟩ :=
          mem_collectHeaderBlocksByHeight (table.mem_of_get hfound)
        exact ⟨block1, hblock1, block2, hblock2, height, hheight1, hheight2,
          by simpa using hconflict⟩
  · cases h

theorem headersEpochContextConflict_spec {header1 header2 : ProbabilisticHeader}
    (h : headersEpochContextConflict header1 header2 = true) :
    ∃ ctx1 ctx2, header1.newEpochContext = some ctx1 ∧ header2.newEpochContext = some ctx2 ∧
      ctx1.epoch = ctx2.epoch ∧ epochContextsEqual ctx1 ctx2 = false := by
  unfold headersEpochContextConflict at h
  split at h
  · rename_i ctx1 ctx2 hctx1 hctx2
    simp only [Bool.and_eq_true, beq_iff_eq, Bool.not_eq_true'] at h
    exact ⟨ctx1, ctx2, hctx1, hctx2, h.1, h.2⟩
  · cases h

/-- What is reported is a contradiction between blocks or between contexts. -/
theorem conflict_of_misbehaviour {store : Store} {msg : ClientMessage}
    (hanchors : ∀ header ∈ msg.headers, ∃ height,
      (header.anchorBlock.bind (·.height)) = some height)
    (h : msg.CheckForMisbehaviour store = true) :
    BlocksConflict store msg ∨ ContextsConflict store msg := by
  have hconsensus : ∀ header ∈ msg.headers,
      headerConflictsWithStoredConsensus store header = true → BlocksConflict store msg :=
    fun header hmem h => .inr ⟨header, hmem, headerConflictsWithStoredConsensus_spec h⟩
  have hcontext : ∀ header ∈ msg.headers,
      store.clientState.headerEpochContextConflictsWithStored header = true →
        ContextsConflict store msg := by
    intro header hmem h
    obtain ⟨ctx, hctx, hstored⟩ := headerEpochContextConflictsWithStored_spec h
    exact ⟨header, hmem, ctx, hctx, .inr hstored⟩
  cases msg with
  | header header =>
    simp only [ClientMessage.CheckForMisbehaviour, CheckForMisbehaviour, Bool.or_eq_true] at h
    rcases h with h | h
    · exact .inl (hconsensus header List.mem_cons_self h)
    · exact .inr (hcontext header List.mem_cons_self h)
  | misbehaviour m =>
    have hmem1 : m.probabilisticHeader1 ∈ (ClientMessage.misbehaviour m).headers :=
      List.mem_cons_self
    have hmem2 : m.probabilisticHeader2 ∈ (ClientMessage.misbehaviour m).headers :=
      List.mem_cons_of_mem _ List.mem_cons_self
    simp only [ClientMessage.CheckForMisbehaviour, Misbehaviour.conflicts, Bool.or_eq_true] at h
    rcases h with ((((h | h) | h) | h) | h) | h
    · obtain ⟨block1, hblock1, block2, hblock2, hspec⟩ :=
        headersConflict_spec (hanchors _ hmem1) h
      exact .inl (.inl ⟨_, hmem1, _, hmem2, block1, hblock1, block2, hblock2, hspec⟩)
    · obtain ⟨ctx1, ctx2, hctx1, hctx2, hepoch, hdiffer⟩ := headersEpochContextConflict_spec h
      exact .inr ⟨_, hmem2, ctx2, hctx2, .inl ⟨_, hmem1, ctx1, hctx1, hepoch, hdiffer⟩⟩
    · exact .inl (hconsensus _ hmem1 h)
    · exact .inl (hconsensus _ hmem2 h)
    · exact .inr (hcontext _ hmem1 h)
    · exact .inr (hcontext _ hmem2 h)

/-! ## One chain -/

/-- Texts are the same up to case, or they are not. -/
class LawfulTexts : Prop where
  equalFold_symm : ∀ {a b : Bytes}, equalFold a b = true → equalFold b a = true
  equalFold_trans : ∀ {a b c : Bytes}, equalFold a b = true → equalFold b c = true →
    equalFold a c = true

/-- The blocks of the message and those accepted before are of one chain, and its contexts and the
stored ones are the chain's. -/
structure OfOneChain (chain : Height → Bytes) (contextOf : UInt64 → EpochContext) (store : Store)
    (msg : ClientMessage) : Prop where
  blocks : ∀ header ∈ msg.headers, ∀ block ∈ header.blocks, ∀ height, block.height = some height →
    equalFold block.hash (chain height) = true
  accepted : ∀ height accepted, store.consensusState height = some accepted →
    equalFold accepted.acceptedBlockHash (chain height) = true
  brought : ∀ header ∈ msg.headers, ∀ ctx, header.newEpochContext = some ctx →
    ctx = contextOf ctx.epoch
  stored : ∀ contexts, store.clientState.normalizedEpochContexts = .ok contexts →
    ∀ ctx ∈ contexts, ctx = contextOf ctx.epoch

theorem epochContextsEqual_self {ctx : EpochContext} (h : validateEpochContext ctx = .ok ()) :
    epochContextsEqual ctx ctx = true := by
  simp only [epochContextsEqual, beq_self_eq_true, Bool.true_and, List.all_eq_true]
  intro entry hentry
  rw [entryByPool_of_mem (validateEpochContext_nodup h) hentry]
  simp

theorem OfOneChain.no_blocks_conflict [LawfulTexts] {chain : Height → Bytes}
    {contextOf : UInt64 → EpochContext} {store : Store} {msg : ClientMessage}
    (h : OfOneChain chain contextOf store msg) : ¬ BlocksConflict store msg := by
  rintro (⟨header1, hmem1, header2, hmem2, block1, hblock1, block2, hblock2, height, hheight1,
    hheight2, hdiffer⟩ | ⟨header, hmem, block, hblock, height, accepted, hheight, haccepted,
    hdiffer⟩)
  · have hsame := LawfulTexts.equalFold_trans
      (h.blocks header1 hmem1 block1 hblock1 height hheight1)
      (LawfulTexts.equalFold_symm (h.blocks header2 hmem2 block2 hblock2 height hheight2))
    rw [hdiffer] at hsame
    cases hsame
  · have hsame := LawfulTexts.equalFold_trans (h.accepted height accepted haccepted)
      (LawfulTexts.equalFold_symm (h.blocks header hmem block hblock height hheight))
    rw [hdiffer] at hsame
    cases hsame

theorem OfOneChain.no_contexts_conflict {chain : Height → Bytes}
    {contextOf : UInt64 → EpochContext} {store : Store} {msg : ClientMessage}
    (h : OfOneChain chain contextOf store msg)
    (hvalid : ∀ header ∈ msg.headers, ∀ ctx, header.newEpochContext = some ctx →
      validateEpochContext ctx = .ok ()) : ¬ ContextsConflict store msg := by
  rintro ⟨header, hmem, ctx, hctx, ⟨other, hother, ctx', hctx', hepoch, hdiffer⟩ |
    ⟨contexts, stored, hcontexts, hstored, hdiffer⟩⟩
  · have hsame : ctx' = ctx := by
      rw [h.brought other hother ctx' hctx', h.brought header hmem ctx hctx, hepoch]
    rw [hsame, epochContextsEqual_self (hvalid header hmem ctx hctx)] at hdiffer
    cases hdiffer
  · obtain ⟨hin, hepoch⟩ := epochContextByEpoch_spec hstored
    have hsame : stored = ctx := by
      rw [h.stored contexts hcontexts stored hin, h.brought header hmem ctx hctx, hepoch]
    rw [hsame, epochContextsEqual_self (hvalid header hmem ctx hctx)] at hdiffer
    cases hdiffer

/-! ## Verified messages -/

variable [Native]

/-- The blocks after a header's anchor are enough, counted under these contexts. -/
structure Qualified (store : Store) (header : ProbabilisticHeader) (contexts : List EpochContext)
    (authenticated : AuthenticatedHeader) (ctx : EpochContext) (metrics : Metrics) : Prop where
  authenticates : store.clientState.authenticateHeaderBlocksWithContexts header contexts =
    .ok authenticated
  context : epochContextByEpoch contexts authenticated.anchorBlock.epoch = some ctx
  depth : DefaultThresholdDepth ≤ authenticated.descendantBlocks.length.toUInt64
  metrics_eq : store.clientState.computeHeaderSecurityMetrics authenticated ctx = .ok metrics
  pools : DefaultThresholdUniquePools ≤ metrics.uniquePools
  stake : DefaultThresholdUniqueStakeBps ≤ metrics.uniqueStakeBps

theorem verifyHeaderWithMode_spec {store : Store} {header : ProbabilisticHeader} {mode : Bool}
    (h : verifyHeaderWithMode store header mode = .ok ()) :
    header.ValidateBasic = .ok () ∧ ∃ contexts authenticated ctx metrics,
      contextsFor store header = .ok contexts ∧
        Qualified store header contexts authenticated ctx metrics := by
  -- the two ways only differ in the block that is trusted
  cases mode
  all_goals
    simp only [verifyHeaderWithMode, bind_eq_ok, require_eq_ok, found_eq_ok, Bool.false_eq_true,
      if_false, if_true] at h
    obtain ⟨_, hbasic, trusted, -, contexts, hnormalized, merged, hmerges, authenticated,
      hauthenticates, _, -, _, -, ctx, hcontext, _, hdepth, metrics, hmetrics, _, hpools, _,
      hstake, -⟩ := h
    refine ⟨hbasic, merged, authenticated, ctx, metrics, ?_, hauthenticates, hcontext,
      by simpa using hdepth, hmetrics, by simpa using hpools, by simpa using hstake⟩
    simp only [contextsFor, bind_eq_ok]
    exact ⟨contexts, hnormalized, hmerges⟩

omit [Native] in
theorem ValidateBasic_spec {header : ProbabilisticHeader} (h : header.ValidateBasic = .ok ()) :
    (∃ height, (header.anchorBlock.bind (·.height)) = some height) ∧
      ∀ ctx, header.newEpochContext = some ctx → validateEpochContext ctx = .ok () := by
  simp only [ProbabilisticHeader.ValidateBasic, anchorOf, bind_eq_ok, found_eq_ok, pure_eq_ok,
    Prod.exists, Prod.mk.injEq] at h
  obtain ⟨trusted, -, _, -, anchor, height, ⟨_, hanchor, _, hheight, rfl, rfl⟩, _, -, _, -, _, -,
    _, -, h⟩ := h
  refine ⟨⟨_, by rw [hanchor]; exact hheight⟩, ?_⟩
  intro ctx hctx
  rw [hctx] at h
  split at h
  all_goals
    simp only [bind_eq_ok] at h
    obtain ⟨_, -, _, hvalid, -⟩ := h
    exact hvalid

theorem verified_headers {store : Store} {msg : ClientMessage}
    (h : VerifyClientMessage store msg = .ok ()) :
    ∀ header ∈ msg.headers, ∃ mode, verifyHeaderWithMode store header mode = .ok () := by
  cases msg with
  | header header =>
    intro x hx
    rw [List.mem_singleton.mp hx]
    exact ⟨true, h⟩
  | misbehaviour m =>
    simp only [VerifyClientMessage, verifyMisbehaviour, bind_eq_ok] at h
    obtain ⟨_, h1, _, h2, -⟩ := h
    intro x hx
    rcases List.mem_cons.mp hx with rfl | hx
    · exact ⟨false, h1⟩
    · rw [List.mem_singleton.mp hx]
      exact ⟨false, h2⟩

/-- A message that is verified and freezes the client shows two blocks of one height or two contexts
of one epoch that contradict each other, its headers are each followed by enough pools and stake
under the stored contexts with their own put in, and it is not of one chain with what is stored. -/
theorem freezing_message_is_a_contradiction [LawfulTexts] {store : Store} {msg : ClientMessage}
    (hverified : VerifyClientMessage store msg = .ok ())
    (hreported : msg.CheckForMisbehaviour store = true) :
    (BlocksConflict store msg ∨ ContextsConflict store msg) ∧
      (∀ header ∈ msg.headers, ∃ contexts authenticated ctx metrics,
        contextsFor store header = .ok contexts ∧
          (header.newEpochContext = none →
            store.clientState.normalizedEpochContexts = .ok contexts) ∧
          Qualified store header contexts authenticated ctx metrics) ∧
      ∀ chain contextOf, ¬ OfOneChain chain contextOf store msg := by
  have hheaders : ∀ header ∈ msg.headers, header.ValidateBasic = .ok () ∧
      ∃ contexts authenticated ctx metrics, contextsFor store header = .ok contexts ∧
        Qualified store header contexts authenticated ctx metrics := by
    intro header hmem
    obtain ⟨mode, hmode⟩ := verified_headers hverified header hmem
    exact verifyHeaderWithMode_spec hmode
  have hconflict := conflict_of_misbehaviour
    (fun header hmem => (ValidateBasic_spec (hheaders header hmem).1).1) hreported
  refine ⟨hconflict, ?_, ?_⟩
  · intro header hmem
    obtain ⟨-, contexts, authenticated, ctx, metrics, hcontexts, hqualified⟩ :=
      hheaders header hmem
    refine ⟨contexts, authenticated, ctx, metrics, hcontexts, ?_, hqualified⟩
    intro hnone
    rw [← contextsFor_none hnone]
    exact hcontexts
  · intro chain contextOf hone
    rcases hconflict with h | h
    · exact hone.no_blocks_conflict h
    · exact hone.no_contexts_conflict
        (fun header hmem => (ValidateBasic_spec (hheaders header hmem).1).2) h

end Law

/-! ## A stranger's context -/

section Sample

local instance misbehaviourTexts : Texts := asciiTexts

local instance misbehaviourNative : Native := symbolicNative

local instance misbehaviourLawfulTexts : LawfulTexts where
  equalFold_symm h := by
    have h := eq_of_beq h
    exact beq_iff_eq.mpr h.symm
  equalFold_trans h h' := by
    have h := eq_of_beq h
    have h' := eq_of_beq h'
    exact beq_iff_eq.mpr (h.trans h')

/-- The context stored for the epoch, with a pool that made none of the sample's blocks. -/
def storedPools : EpochContext :=
  { genuineContext with epoch := 11, epochStartSlot := 2000, epochEndSlotExclusive := 3000 }

theorem stranger_verified :
    VerifyClientMessage (sampleStore storedPools) (.header forgedHeader) = .ok () := by
  decide +kernel

theorem stranger_reported :
    (ClientMessage.header forgedHeader).CheckForMisbehaviour (sampleStore storedPools) = true := by
  decide +kernel

/-- A header freezes the client though it contradicts no accepted block and no pool of a stored
context made a block of it: all it takes is a context of its own for the stored epoch. -/
theorem a_strangers_context_freezes :
    VerifyClientMessage (sampleStore storedPools) (.header forgedHeader) = .ok () ∧
      (ClientMessage.header forgedHeader).CheckForMisbehaviour (sampleStore storedPools) = true ∧
      headerConflictsWithStoredConsensus (sampleStore storedPools) forgedHeader = false ∧
      ∀ ctx ∈ (sampleStore storedPools).clientState.epochContexts,
        ∀ entry ∈ ctx.stakeDistribution, entry.poolId ∉ issuers forgedHeader :=
  ⟨stranger_verified, stranger_reported, by decide +kernel, by decide +kernel⟩

/-- It does contradict the stored context, and has the pools that it names itself behind it. -/
theorem the_strangers_header_is_a_contradiction :
    (BlocksConflict (sampleStore storedPools) (.header forgedHeader) ∨
        ContextsConflict (sampleStore storedPools) (.header forgedHeader)) ∧
      (∃ contexts authenticated ctx metrics,
        contextsFor (sampleStore storedPools) forgedHeader = .ok contexts ∧
          Qualified (sampleStore storedPools) forgedHeader contexts authenticated ctx metrics) ∧
      ∀ chain contextOf,
        ¬ OfOneChain chain contextOf (sampleStore storedPools) (.header forgedHeader) := by
  obtain ⟨hconflict, hqualified, hone⟩ :=
    freezing_message_is_a_contradiction stranger_verified stranger_reported
  obtain ⟨contexts, authenticated, ctx, metrics, hcontexts, -, h⟩ :=
    hqualified forgedHeader List.mem_cons_self
  exact ⟨hconflict, ⟨contexts, authenticated, ctx, metrics, hcontexts, h⟩, hone⟩

end Sample

end cardano_ibc.probabilistic
