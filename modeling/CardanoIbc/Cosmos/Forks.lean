-- When two headers show a fork (misbehaviour_handle.go, headersConflict): they carry different
-- blocks at one height. Headers with one anchor are told apart by nothing else.
import CardanoIbc.Cosmos.Metrics

namespace cardano_ibc.probabilistic

/-! ## The blocks of a header by height -/

/-- One turn of the loop that collects the blocks. -/
def appendBlock (blocks : List (Height × Bytes)) (block : ProbabilisticBlock) :
    List (Height × Bytes) :=
  match block.height with
  | none => blocks
  | some height => table.set blocks height block.hash

theorem collectHeaderBlocksByHeight_eq (header : ProbabilisticHeader) :
    collectHeaderBlocksByHeight header = header.blocks.foldl appendBlock [] := rfl

theorem get_appendBlock_of_ne {block : ProbabilisticBlock} {height : Height}
    (h : block.height ≠ some height) (blocks : List (Height × Bytes)) :
    table.get (appendBlock blocks block) height = table.get blocks height := by
  unfold appendBlock
  cases hheight : block.height with
  | none => rfl
  | some other =>
    have hne : other ≠ height := fun heq => h (by rw [hheight, heq])
    simp only [table.get_set, if_neg hne]

theorem get_appended_of_not_mem {blocks : List ProbabilisticBlock} {height : Height}
    (h : some height ∉ blocks.map ProbabilisticBlock.height) (start : List (Height × Bytes)) :
    table.get (blocks.foldl appendBlock start) height = table.get start height := by
  induction blocks generalizing start with
  | nil => rfl
  | cons block blocks ih =>
    rw [List.map_cons, List.mem_cons, not_or] at h
    rw [List.foldl_cons, ih h.2, get_appendBlock_of_ne (Ne.symm h.1)]

/-- Where no height stands twice, each block is found under its own. -/
theorem get_appended {blocks : List ProbabilisticBlock}
    (hnodup : (blocks.map ProbabilisticBlock.height).Nodup) {block : ProbabilisticBlock}
    (hblock : block ∈ blocks) {height : Height} (hheight : block.height = some height)
    (start : List (Height × Bytes)) :
    table.get (blocks.foldl appendBlock start) height = some block.hash := by
  induction blocks generalizing start with
  | nil => cases hblock
  | cons b blocks ih =>
    rw [List.map_cons, List.nodup_cons] at hnodup
    rw [List.foldl_cons]
    rcases List.mem_cons.mp hblock with rfl | hblock
    · rw [hheight] at hnodup
      rw [get_appended_of_not_mem hnodup.1, appendBlock, hheight]
      simp only [table.get_set, if_true]
    · exact ih hnodup.2 hblock _

/-- In a chain of blocks no height stands twice, unless there are as many as there are numbers. -/
theorem Ascends.nodup {height : UInt64} {bs : List AuthenticatedBlock} (h : Ascends height bs)
    (hlength : bs.length < 2 ^ 64) : (bs.map AuthenticatedBlock.height).Nodup := by
  induction bs generalizing height with
  | nil => exact List.nodup_nil
  | cons b bs ih =>
    rw [List.length_cons] at hlength
    rw [List.map_cons, List.nodup_cons]
    refine ⟨?_, ih h.2 (by omega)⟩
    intro hmem
    obtain ⟨b', hb', hsame⟩ := List.mem_map.mp hmem
    obtain ⟨between, after, hsplit⟩ := List.append_of_mem hb'
    have hafter := h.2
    rw [hsplit] at hafter
    have heq := congrArg UInt64.toNat (hafter.height_eq)
    rw [hsame, UInt64.toNat_ofNat'] at heq
    have hlt := b.height.toNat_lt
    have hbetween : between.length < bs.length := by
      rw [hsplit, List.length_append, List.length_cons]
      omega
    omega

section Forks

variable [Texts] [Native]

/-- A header that the client verifies in some state, as an update or as misbehaviour. A list of
blocks is not longer than Go can count. -/
structure Passes (header : ProbabilisticHeader) : Prop where
  verified : ∃ store mode, verifyHeaderWithMode store header mode = .ok ()
  bridge_lt : header.bridgeBlocks.length < 2 ^ 63
  descendants_lt : header.descendantBlocks.length < 2 ^ 63

/-- The blocks of a header that passes ascend from the trusted one. -/
theorem verifyHeaderWithMode_ascends {store : Store} {header : ProbabilisticHeader} {mode : Bool}
    (h : verifyHeaderWithMode store header mode = .ok ()) :
    ∃ (trusted : TrustedBlockState) (contexts : List EpochContext)
      (authenticated : AuthenticatedHeader),
      store.clientState.authenticateHeaderBlocksWithContexts header contexts = .ok authenticated ∧
        Ascends trusted.height authenticated.path := by
  cases mode
  all_goals
    simp only [verifyHeaderWithMode, bind_eq_ok, Bool.false_eq_true, if_false, if_true] at h
    obtain ⟨_, -, trusted, -, _, -, merged, -, authenticated, hauthenticates, _, -, _,
      hcontinuity, ctx, -, _, -, metrics, hmetrics, -⟩ := h
    exact ⟨trusted, merged, authenticated, hauthenticates,
      ascends_of_checks hcontinuity hmetrics⟩

/-- The blocks of a header are read in the order of the path. -/
theorem blocks_read {cs : ClientState} {header : ProbabilisticHeader}
    {contexts : List EpochContext} {authenticated : AuthenticatedHeader}
    (h : cs.authenticateHeaderBlocksWithContexts header contexts = .ok authenticated) :
    header.blocks.map ProbabilisticBlock.height =
      authenticated.path.map fun b => some b.height := by
  obtain ⟨hblocks, -⟩ := authenticateHeaderBlocksWithContexts_spec h
  generalize header.blocks = blocks, authenticated.path = path at hblocks
  induction hblocks with
  | nil => rfl
  | cons hblock _ ih =>
    obtain ⟨_, hread⟩ := authenticateProbabilisticBlock_reads hblock
    rw [List.map_cons, List.map_cons, hread.height, ih]

theorem Passes.anchor {header : ProbabilisticHeader} (h : Passes header) :
    ∃ anchor height, header.anchorBlock = some anchor ∧ anchor.height = some height := by
  obtain ⟨⟨store, mode, hverified⟩, -, -⟩ := h
  obtain ⟨height, hheight⟩ := (ValidateBasic_spec (verifyHeaderWithMode_spec hverified).1).1
  obtain ⟨anchor, hanchor, hheight⟩ := Option.bind_eq_some_iff.mp hheight
  exact ⟨anchor, height, hanchor, hheight⟩

theorem Passes.nodup {header : ProbabilisticHeader} (h : Passes header) :
    (header.blocks.map ProbabilisticBlock.height).Nodup := by
  obtain ⟨anchor, -, hanchor, -⟩ := h.anchor
  obtain ⟨⟨store, mode, hverified⟩, hbridge, hdescendants⟩ := h
  obtain ⟨trusted, contexts, authenticated, hauthenticates, hascends⟩ :=
    verifyHeaderWithMode_ascends hverified
  have hread := blocks_read hauthenticates
  have hlength : authenticated.path.length < 2 ^ 64 := by
    have heq := congrArg List.length hread
    simp only [ProbabilisticHeader.blocks, hanchor, List.length_map, List.length_append,
      Option.toList_some, List.length_singleton] at heq
    omega
  rw [hread]
  have hheights := (hascends.nodup hlength).map (Option.some_injective Height)
  rwa [List.map_map] at hheights

/-! ## Forks -/

omit [Native] in
/-- Two headers carry different blocks at one height. -/
def Differ (header1 header2 : ProbabilisticHeader) : Prop :=
  ∃ block1 ∈ header1.blocks, ∃ block2 ∈ header2.blocks, ∃ height, block1.height = some height ∧
    block2.height = some height ∧ equalFold block1.hash block2.hash = false

omit [Native] in
/-- Two headers have one block as their anchor. -/
def SharesAnchor (header1 header2 : ProbabilisticHeader) : Prop :=
  ∃ anchor1 anchor2, header1.anchorBlock = some anchor1 ∧ header2.anchorBlock = some anchor2 ∧
    anchor1.height = anchor2.height ∧ equalFold anchor1.hash anchor2.hash = true

omit [Native] in
/-- A header that carries every block of another, and so is on the same chain. -/
def Extends (header longer : ProbabilisticHeader) : Prop :=
  ∀ block ∈ header.blocks, ∃ block' ∈ longer.blocks, block'.height = block.height ∧
    equalFold block.hash block'.hash = true

/-- A fork is reported just if the headers differ and do not have one anchor. -/
theorem headersConflict_iff {header1 header2 : ProbabilisticHeader} (h1 : Passes header1)
    (h2 : Passes header2) : headersConflict header1 header2 = true ↔
      Differ header1 header2 ∧ ¬ SharesAnchor header1 header2 := by
  obtain ⟨anchor1, height1, hanchor1, hheight1⟩ := h1.anchor
  obtain ⟨anchor2, height2, hanchor2, hheight2⟩ := h2.anchor
  constructor
  · intro h
    refine ⟨headersConflict_spec ⟨height1, by rw [hanchor1]; exact hheight1⟩ h, ?_⟩
    rintro ⟨_, _, hfound1, hfound2, hsame, hequal⟩
    rw [headersConflict, hfound1, hfound2] at h
    simp only [if_pos hsame, hequal] at h
    cases h
  · rintro ⟨⟨block1, hblock1, block2, hblock2, height, hat1, hat2, hdiffer⟩, hshares⟩
    rw [headersConflict, hanchor1, hanchor2]
    dsimp only
    by_cases hsame : anchor1.height = anchor2.height
    · rw [if_pos hsame, Bool.not_eq_true']
      by_contra hequal
      rw [Bool.not_eq_false] at hequal
      exact hshares ⟨anchor1, anchor2, hanchor1, hanchor2, hsame, hequal⟩
    · rw [if_neg hsame, List.any_eq_true]
      have hget1 := get_appended h1.nodup hblock1 hat1 []
      have hget2 := get_appended h2.nodup hblock2 hat2 []
      rw [← collectHeaderBlocksByHeight_eq] at hget1 hget2
      refine ⟨(height, block1.hash), table.mem_of_get hget1, ?_⟩
      dsimp only
      rw [hget2]
      simp [hdiffer]

omit [Native] in
theorem equalFold_eq_false_symm [LawfulTexts] {a b : Bytes} (h : equalFold a b = false) :
    equalFold b a = false := by
  by_contra hequal
  rw [Bool.not_eq_false] at hequal
  rw [LawfulTexts.equalFold_symm hequal] at h
  cases h

omit [Native] in
theorem Differ.symm [LawfulTexts] {header1 header2 : ProbabilisticHeader}
    (h : Differ header1 header2) : Differ header2 header1 := by
  obtain ⟨block1, hblock1, block2, hblock2, height, hat1, hat2, hdiffer⟩ := h
  exact ⟨block2, hblock2, block1, hblock1, height, hat2, hat1, equalFold_eq_false_symm hdiffer⟩

omit [Native] in
theorem SharesAnchor.symm [LawfulTexts] {header1 header2 : ProbabilisticHeader}
    (h : SharesAnchor header1 header2) : SharesAnchor header2 header1 := by
  obtain ⟨anchor1, anchor2, hanchor1, hanchor2, hheight, hequal⟩ := h
  exact ⟨anchor2, anchor1, hanchor2, hanchor1, hheight.symm, LawfulTexts.equalFold_symm hequal⟩

omit [Native] in
/-- Headers that differ still do when they are extended. -/
theorem Differ.extends [LawfulTexts] {header1 header2 longer1 longer2 : ProbabilisticHeader}
    (h : Differ header1 header2) (h1 : Extends header1 longer1) (h2 : Extends header2 longer2) :
    Differ longer1 longer2 := by
  obtain ⟨block1, hblock1, block2, hblock2, height, hat1, hat2, hdiffer⟩ := h
  obtain ⟨block1', hblock1', hheight1, hequal1⟩ := h1 block1 hblock1
  obtain ⟨block2', hblock2', hheight2, hequal2⟩ := h2 block2 hblock2
  refine ⟨block1', hblock1', block2', hblock2', height, hheight1.trans hat1, hheight2.trans hat2,
    ?_⟩
  by_contra hequal
  rw [Bool.not_eq_false] at hequal
  have hsame := LawfulTexts.equalFold_trans (LawfulTexts.equalFold_trans hequal1 hequal)
    (LawfulTexts.equalFold_symm hequal2)
  rw [hdiffer] at hsame
  cases hsame

/-- Forks are reported exactly, the same both ways and for good, just if headers that differ do not
have one anchor and are not extended to headers with one anchor. -/
theorem fork_detection_exact_iff [LawfulTexts]
    {header1 header2 longer1 longer2 : ProbabilisticHeader} (h1 : Passes header1)
    (h2 : Passes header2) (h1' : Passes longer1) (h2' : Passes longer2)
    (hext1 : Extends header1 longer1) (hext2 : Extends header2 longer2) :
    ((headersConflict header1 header2 = true ↔ Differ header1 header2) ∧
        headersConflict header1 header2 = headersConflict header2 header1 ∧
        (headersConflict header1 header2 = true → headersConflict longer1 longer2 = true)) ↔
      (Differ header1 header2 →
        ¬ SharesAnchor header1 header2 ∧ ¬ SharesAnchor longer1 longer2) := by
  have hsymm : headersConflict header1 header2 = headersConflict header2 header1 := by
    rw [Bool.eq_iff_iff, headersConflict_iff h1 h2, headersConflict_iff h2 h1]
    exact and_congr ⟨Differ.symm, Differ.symm⟩
      (not_congr ⟨SharesAnchor.symm, SharesAnchor.symm⟩)
  rw [headersConflict_iff h1 h2, headersConflict_iff h1' h2']
  constructor
  · rintro ⟨hexact, -, hstays⟩ hdiffer
    exact ⟨(hexact.mpr hdiffer).2, (hstays (hexact.mpr hdiffer)).2⟩
  · intro hanchors
    refine ⟨⟨And.left, fun hdiffer => ⟨hdiffer, (hanchors hdiffer).1⟩⟩, hsymm, ?_⟩
    rintro ⟨hdiffer, -⟩
    exact ⟨hdiffer.extends hext1 hext2, (hanchors hdiffer).2⟩

end Forks

/-! ## A fork past the anchor -/

section Sample

local instance forksTexts : Texts := asciiTexts

local instance forksNative : Native := symbolicNative

local instance forksLawfulTexts : LawfulTexts where
  equalFold_symm h := beq_iff_eq.mpr (eq_of_beq h).symm
  equalFold_trans h h' := beq_iff_eq.mpr ((eq_of_beq h).trans (eq_of_beq h'))

/-- The hashes of a branch that leaves the sample at its last block. -/
def twinHash (i : Nat) : Bytes := if i < 25 then sampleBlockHash i else [99, i.toUInt8]

/-- The blocks of the branch, with a body of their own. -/
def twinBlock (i : Nat) : ProbabilisticBlock :=
  let block := sampleLedgerBlock forgedBody i
  { sampleBlock forgedBody i with
    hash := twinHash i
    blockCbor := some { block with
      hash := twinHash i
      header := { block.header with prevHash := twinHash (i - 1) } } }

/-- The header of the sample, on the branch. -/
def twinHeader : ProbabilisticHeader :=
  { silentHeader with
    descendantBlocks :=
      ((List.range 23).map fun i => sampleBlock emptyBody (i + 2)) ++ [twinBlock 25] }

/-- A header for the block after the anchor of the sample, on the branch. -/
def laterTwinHeader : ProbabilisticHeader :=
  { silentHeader with
    bridgeBlocks := [sampleBlock forgedBody 1]
    anchorBlock := some (sampleBlock emptyBody 2)
    descendantBlocks :=
      ((List.range 22).map fun i => sampleBlock emptyBody (i + 3)) ++ [twinBlock 25, twinBlock 26]
    hostStateTxHash := []
    isCheckpoint := true }

theorem silentHeader_passes : Passes silentHeader :=
  ⟨⟨sampleStore (samplePools 11), false, by decide +kernel⟩, by decide, by decide⟩

theorem twinHeader_passes : Passes twinHeader :=
  ⟨⟨sampleStore (samplePools 11), false, by decide +kernel⟩, by decide, by decide⟩

theorem laterTwinHeader_passes : Passes laterTwinHeader :=
  ⟨⟨sampleStore (samplePools 11), false, by decide +kernel⟩, by decide, by decide⟩

theorem extends_self (header : ProbabilisticHeader) : Extends header header :=
  fun block hblock => ⟨block, hblock, rfl, beq_self_eq_true _⟩

/-- Two headers of one anchor that are followed by different blocks are both verified, and no fork
is reported. -/
theorem a_fork_past_the_anchor_is_not_reported :
    Passes silentHeader ∧ Passes twinHeader ∧ Differ silentHeader twinHeader ∧
      headersConflict silentHeader twinHeader = false := by
  refine ⟨silentHeader_passes, twinHeader_passes, ?_, by decide +kernel⟩
  refine ⟨sampleBlock emptyBody 25, ?_, twinBlock 25, ?_, 125, rfl, rfl, by decide +kernel⟩
  · refine List.mem_append_right _ ?_
    exact List.mem_map.mpr ⟨23, by decide, rfl⟩
  · refine List.mem_append_right _ ?_
    exact List.mem_append_right _ List.mem_cons_self

/-- From the next anchor on the fork is reported. -/
theorem a_fork_past_two_anchors_is_reported :
    (headersConflict silentHeader laterTwinHeader = true ↔ Differ silentHeader laterTwinHeader) ∧
      headersConflict silentHeader laterTwinHeader =
        headersConflict laterTwinHeader silentHeader ∧
      (headersConflict silentHeader laterTwinHeader = true →
        headersConflict silentHeader laterTwinHeader = true) := by
  have hanchors : ¬ SharesAnchor silentHeader laterTwinHeader := by
    rintro ⟨_, _, hanchor1, hanchor2, hheight, -⟩
    cases hanchor1
    cases hanchor2
    exact absurd hheight (by decide)
  exact (fork_detection_exact_iff silentHeader_passes laterTwinHeader_passes silentHeader_passes
    laterTwinHeader_passes (extends_self _) (extends_self _)).mpr fun _ => ⟨hanchors, hanchors⟩

end Sample

end cardano_ibc.probabilistic
