-- Who may make a block in Ouroboros Praos, and how much of that the Cosmos-side client asks of the
-- blocks it counts (cardano_block.go, block_authentication.go): the two keys are checked, the lot
-- and the certificate are not.
import CardanoIbc.Cosmos.Misbehaviour
import CardanoIbc.Library.CborItem
import Mathlib.Analysis.SpecialFunctions.Pow.Real

namespace cardano_ibc.probabilistic

/-! ## Slot leaders and certificates -/

/-- Signatures of cold keys: whether the key signed the message in this way. -/
class ColdKeys where
  coldKeySigned : Bytes → Bytes → Bytes → Bool

export ColdKeys (coldKeySigned)

/-- The hot key, its number and its first period, as the cold key signs them. -/
def OperationalCertificate.signable (cert : OperationalCertificate) : Bytes :=
  cert.hotVkey ++ bigEndian 8 cert.sequenceNumber.toNat ++ bigEndian 8 cert.kesPeriod.toNat

def BlockHeader.CertificateSigned [ColdKeys] (header : BlockHeader) : Prop :=
  coldKeySigned header.issuerVkey header.opCert.signable header.opCert.signature = true

section Leaders

variable [Texts] [Native]

/-- The lot a pool draws for a slot, out of 2 ^ 256. -/
def leaderValue (vrfOutput : Bytes) : Nat := cbor_item.ofBe (sum256 (utf8 "L" ++ vrfOutput))

/-- A pool's share of the stake of its context. -/
noncomputable def stakeShare (ctx : EpochContext) (entry : StakeDistributionEntry) : ℝ :=
  entry.stake.toNat / (ctx.stakeDistribution.map fun e => e.stake.toNat).sum

/-- The issuer's lot is below the threshold for its share. With `f` the share of slots that are to
have a leader, a pool of the share `s` has one in the share `1 - (1 - f) ^ s`. -/
def BlockHeader.Elected (f : ℝ) (ctx : EpochContext) (header : BlockHeader) : Prop :=
  ∃ entry output proof,
    findStakeDistributionEntryInContext ctx (poolIdOf header.issuerVkey) = .ok entry ∧
      header.vrfResult = some (output, proof) ∧
      (leaderValue output : ℝ) / 2 ^ 256 < 1 - (1 - f) ^ stakeShare ctx entry

/-- No lot is won without stake. -/
theorem BlockHeader.Elected.stake_ne_zero {f : ℝ} {ctx : EpochContext} {header : BlockHeader}
    (h : header.Elected f ctx) :
    ∃ entry, findStakeDistributionEntryInContext ctx (poolIdOf header.issuerVkey) = .ok entry ∧
      entry.stake ≠ 0 := by
  obtain ⟨entry, output, proof, hentry, -, hlot⟩ := h
  refine ⟨entry, hentry, ?_⟩
  intro hzero
  have hshare : stakeShare ctx entry = 0 := by simp [stakeShare, hzero]
  rw [hshare, Real.rpow_zero, sub_self] at hlot
  have hlots : (0 : ℝ) ≤ (leaderValue output : ℝ) / 2 ^ 256 := by positivity
  exact absurd hlot (not_lt.mpr hlots)

/-! ## What is asked of a block -/

/-- A block is signed with the hot key of its certificate, and its lot is drawn with the key that
the issuer's pool has in the slot's context. -/
structure MadeWithKeys (contexts : List EpochContext) (decoded : LedgerBlock) (ctx : EpochContext) :
    Prop where
  context : epochContextForSlot contexts decoded.header.slot = some ctx
  signed : verifyKes decoded.header ctx.slotsPerKesPeriod = some true
  drawn : ∃ output proof, decoded.header.vrfResult = some (output, proof) ∧
    vrfVerifyAndHash decoded.header.vrfKey proof
      (mkInputVrf decoded.header.slot ctx.epochNonce) = some output
  body : verifyRawBlockBody decoded.bodyFields decoded.header.blockBodyHash = true
  pool : ∃ entry,
    findStakeDistributionEntryInContext ctx (poolIdOf decoded.header.issuerVkey) = .ok entry ∧
      entry.vrfKeyHash = sum256 decoded.header.vrfKey

/-- The block is made with the keys of its context in a slot that has a time. -/
def Admitted (cs : ClientState) (contexts : List EpochContext) (decoded : LedgerBlock) : Prop :=
  (∃ time, cs.DeriveTimestampFromSlot decoded.header.slot = .ok time) ∧
    ∃ ctx, MadeWithKeys contexts decoded ctx

/-- There is a message with this block that is authenticated. -/
def Accepted (cs : ClientState) (contexts : List EpochContext) (decoded : LedgerBlock) : Prop :=
  ∃ block b, block.blockCbor = some decoded ∧
    cs.authenticateProbabilisticBlock block contexts = .ok b

/-- Exactly the blocks that are made with the keys are accepted. -/
theorem accepted_iff {cs : ClientState} {contexts : List EpochContext}
    {decoded : LedgerBlock} (hhash : equalFold decoded.hash decoded.hash = true) :
    Accepted cs contexts decoded ↔ Admitted cs contexts decoded := by
  constructor
  · rintro ⟨block, b, hdecoded, h⟩
    simp only [ClientState.authenticateProbabilisticBlock, verifyNativeProbabilisticBlock,
      VerifyNativeBlock, hdecoded, bind_eq_ok, require_eq_ok, found_eq_ok, pure_eq_ok, Prod.exists,
      Prod.mk.injEq, Option.some.injEq, exists_eq_left'] at h
    obtain ⟨height, -, -, -, -, -, -, hslot, time, htime, -, -, ctx, hctx, -, -, -, -, poolID,
      vrfKeyHash, ⟨valid, vrfKey, ⟨kes, hkes, output, proof, hresult, out, hvrf, hvalid, rfl⟩, -,
      hisValid, rfl, rfl⟩, entry, hentry, -, hkey, -⟩ := h
    rw [← hvalid] at hisValid
    simp only [Bool.and_eq_true, beq_iff_eq] at hisValid
    obtain ⟨⟨rfl, rfl⟩, hbody⟩ := hisValid
    have hslot : decoded.header.slot = block.slot := by simpa using hslot
    refine ⟨⟨time, hslot ▸ htime⟩, ctx, hctx, hkes, ⟨out, proof, hresult, hvrf⟩, hbody, entry,
      hentry, by simpa using hkey⟩
  · rintro ⟨⟨time, htime⟩, ctx, hctx, hkes, ⟨output, proof, hresult, hvrf⟩, hbody, entry, hentry,
      hkey⟩
    refine ⟨⟨some decoded.header.blockNumber, decoded.header.slot, decoded.hash, ctx.epoch, time,
      some decoded⟩,
      { height := decoded.header.blockNumber, slot := decoded.header.slot, hash := decoded.hash,
        prevHash := decoded.header.prevHash, epoch := ctx.epoch, timestamp := time,
        slotLeader := poolIdOf decoded.header.issuerVkey }, rfl, ?_⟩
    have hnative : verifyNativeProbabilisticBlock decoded ctx =
        .ok (poolIdOf decoded.header.issuerVkey, sum256 decoded.header.vrfKey) := by
      simp [verifyNativeProbabilisticBlock, VerifyNativeBlock, hkes, hresult, hvrf, hbody, found,
        require, bind, Except.bind, pure, Except.pure]
    simp only [ClientState.authenticateProbabilisticBlock, found, hhash, htime, hctx, hnative,
      hentry, hkey, epochContextForSlot_within hctx, require, bind, Except.bind, beq_self_eq_true,
      if_true]
    rfl

/-! ## What is not asked -/

/-- The context with other stakes for its pools. -/
def restake (stakes : Bytes → UInt64) (ctx : EpochContext) : EpochContext :=
  { ctx with stakeDistribution := ctx.stakeDistribution.map fun entry =>
      { entry with stake := stakes entry.poolId } }

omit [Texts] [Native] in
theorem epochContextForSlot_restake (stakes : Bytes → UInt64) (contexts : List EpochContext)
    (slot : UInt64) :
    epochContextForSlot (contexts.map (restake stakes)) slot =
      (epochContextForSlot contexts slot).map (restake stakes) := by
  suffices hfold : ∀ start : Option EpochContext,
      (contexts.map (restake stakes)).foldl (fun found ctx =>
        if ctx.epochStartSlot ≤ slot ∧ slot < ctx.epochEndSlotExclusive then some ctx else found)
        (start.map (restake stakes)) =
      (contexts.foldl (fun found ctx =>
        if ctx.epochStartSlot ≤ slot ∧ slot < ctx.epochEndSlotExclusive then some ctx else found)
        start).map (restake stakes) from hfold none
  induction contexts with
  | nil => exact fun _ => rfl
  | cons c cs ih =>
    intro start
    simp only [List.map_cons, List.foldl_cons]
    rw [← ih]
    congr 1
    show (if c.epochStartSlot ≤ slot ∧ slot < c.epochEndSlotExclusive then _ else _) = _
    split <;> rfl

omit [Native] in
theorem findStakeDistributionEntryInContext_restake {stakes : Bytes → UInt64} {ctx : EpochContext}
    {poolID : Bytes} {entry : StakeDistributionEntry}
    (h : findStakeDistributionEntryInContext ctx poolID = .ok entry) :
    findStakeDistributionEntryInContext (restake stakes ctx) poolID =
      .ok { entry with stake := stakes entry.poolId } := by
  simp only [findStakeDistributionEntryInContext, found_eq_ok] at h ⊢
  simp only [restake, List.find?_map, Option.map_eq_some_iff]
  exact ⟨entry, h, rfl⟩

theorem MadeWithKeys.restake {contexts : List EpochContext} {decoded : LedgerBlock}
    {ctx : EpochContext} (h : MadeWithKeys contexts decoded ctx) (stakes : Bytes → UInt64) :
    MadeWithKeys (contexts.map (restake stakes)) decoded (restake stakes ctx) := by
  obtain ⟨entry, hentry, hkey⟩ := h.pool
  refine ⟨?_, h.signed, h.drawn, h.body, _, findStakeDistributionEntryInContext_restake hentry, hkey⟩
  rw [epochContextForSlot_restake, h.context]
  rfl

theorem MadeWithKeys.of_restake {contexts : List EpochContext} {decoded : LedgerBlock}
    {ctx : EpochContext} {stakes : Bytes → UInt64}
    (h : MadeWithKeys (contexts.map (probabilistic.restake stakes)) decoded ctx) :
    ∃ ctx, MadeWithKeys contexts decoded ctx := by
  have hctx := h.context
  rw [epochContextForSlot_restake, Option.map_eq_some_iff] at hctx
  obtain ⟨own, hown, rfl⟩ := hctx
  obtain ⟨entry, hentry, hkey⟩ := h.pool
  simp only [findStakeDistributionEntryInContext, probabilistic.restake, found_eq_ok,
    List.find?_map, Option.map_eq_some_iff] at hentry
  obtain ⟨entry, hentry, rfl⟩ := hentry
  refine ⟨own, hown, h.signed, h.drawn, h.body, entry, ?_, hkey⟩
  rw [findStakeDistributionEntryInContext, found_eq_ok]
  exact hentry

/-- The block with another signature of the certificate, signed once more with the hot key. -/
def LedgerBlock.recertified (decoded : LedgerBlock) (signature kesSignature hash : Bytes) :
    LedgerBlock :=
  { decoded with
    header := { decoded.header with
      opCert := { decoded.header.opCert with signature }
      kesSignature }
    hash }

/-- Who can sign a block with the hot key can sign it with any certificate for that key. -/
class HotKeys : Prop where
  signs : ∀ {header : BlockHeader} {period : UInt64} (signature : Bytes),
    verifyKes header period = some true → ∃ kesSignature, verifyKes
      { header with opCert := { header.opCert with signature }, kesSignature } period = some true

theorem MadeWithKeys.recertified [HotKeys] {contexts : List EpochContext} {decoded : LedgerBlock}
    {ctx : EpochContext} (h : MadeWithKeys contexts decoded ctx) (signature hash : Bytes) :
    ∃ kesSignature, MadeWithKeys contexts (decoded.recertified signature kesSignature hash) ctx := by
  obtain ⟨kesSignature, hsigned⟩ := HotKeys.signs signature h.signed
  exact ⟨kesSignature, h.context, hsigned, h.drawn, h.body, h.pool⟩

/-- That accepted blocks have certificates the cold key signed, and that they are by elected leaders
whatever the stakes of their contexts, is each true only of contexts that admit no block. -/
theorem only_contexts_without_blocks_have_elected_leaders [HotKeys] [ColdKeys]
    (hfold : ∀ text : Bytes, equalFold text text = true)
    (hcold : ∀ key message, ∃ signature, coldKeySigned key message signature = false)
    (f : ℝ) (cs : ClientState) (contexts : List EpochContext) :
    ((∀ decoded, Accepted cs contexts decoded → decoded.header.CertificateSigned) ↔
        ∀ decoded, ¬ Admitted cs contexts decoded) ∧
      ((∀ stakes decoded ctx, Accepted cs (contexts.map (restake stakes)) decoded →
          epochContextForSlot (contexts.map (restake stakes)) decoded.header.slot = some ctx →
            decoded.header.Elected f ctx) ↔
        ∀ decoded, ¬ Admitted cs contexts decoded) := by
  have haccepted : ∀ contexts decoded, Accepted cs contexts decoded ↔
      Admitted cs contexts decoded := fun _ decoded => accepted_iff (hfold decoded.hash)
  refine ⟨⟨?_, ?_⟩, ⟨?_, ?_⟩⟩
  · rintro hall decoded ⟨htime, ctx, hmade⟩
    obtain ⟨signature, hbad⟩ := hcold decoded.header.issuerVkey decoded.header.opCert.signable
    obtain ⟨kesSignature, hmade⟩ := hmade.recertified signature decoded.hash
    have hsigned := hall (decoded.recertified signature kesSignature decoded.hash)
      ((haccepted _ _).mpr ⟨htime, ctx, hmade⟩)
    have hsigned : coldKeySigned decoded.header.issuerVkey decoded.header.opCert.signable
        signature = true := hsigned
    rw [hbad] at hsigned
    cases hsigned
  · intro hnone decoded h
    exact absurd ((haccepted _ _).mp h) (hnone decoded)
  · rintro hall decoded ⟨htime, ctx, hmade⟩
    -- with no stake for anyone the block is still accepted, and no lot is won
    have hmade' := hmade.restake fun _ => 0
    have helected := hall (fun _ => 0) decoded _
      ((haccepted _ _).mpr ⟨htime, _, hmade'⟩) hmade'.context
    obtain ⟨entry, hentry, hstake⟩ := helected.stake_ne_zero
    obtain ⟨entry', hentry', -⟩ := hmade.pool
    rw [findStakeDistributionEntryInContext_restake hentry'] at hentry
    cases hentry
    exact hstake rfl
  · rintro hnone stakes decoded ctx h -
    obtain ⟨htime, ctx, hmade⟩ := (haccepted _ _).mp h
    obtain ⟨own, hown⟩ := hmade.of_restake
    exact absurd ⟨htime, own, hown⟩ (hnone decoded)

end Leaders

/-! ## A pool without stake -/

section Sample

local instance slotLeaderTexts : Texts := asciiTexts

local instance slotLeaderNative : Native := symbolicNative

/-- Signatures of cold keys as symbols, too. -/
abbrev symbolicColdKeys : ColdKeys where
  coldKeySigned key message signature := signature == key ++ message

local instance slotLeaderColdKeys : ColdKeys := symbolicColdKeys

local instance slotLeaderHotKeys : HotKeys where
  signs {header _} _ _ := ⟨header.opCert.hotVkey, congrArg some (beq_self_eq_true _)⟩

/-- The pools of the sample, one of them without stake. -/
def poolsAndPauper : EpochContext :=
  restake (fun poolID => if poolID = (samplePool 2).poolId then 0 else 1000) (samplePools 11)

/-- The block of the pool without stake. -/
def paupersBlock : ProbabilisticBlock := sampleBlock emptyBody 2

/-- A pool without stake is never elected, and its certificate is signed by nobody. Its block is
authenticated. -/
theorem a_pauper_makes_a_block :
    validateEpochContext poolsAndPauper = .ok () ∧
      ((sampleStore poolsAndPauper).clientState.authenticateProbabilisticBlock paupersBlock
        [poolsAndPauper]).isOk ∧
      paupersBlock.blockCbor = some (sampleLedgerBlock emptyBody 2) ∧
      ¬ (sampleLedgerBlock emptyBody 2).header.Elected (1 / 20) poolsAndPauper ∧
      ¬ (sampleLedgerBlock emptyBody 2).header.CertificateSigned := by
  refine ⟨by decide +kernel, by decide +kernel, rfl, ?_, ?_⟩
  · intro helected
    obtain ⟨entry, hentry, hstake⟩ := helected.stake_ne_zero
    have hpauper : findStakeDistributionEntryInContext poolsAndPauper
        (poolIdOf (sampleLedgerBlock emptyBody 2).header.issuerVkey) =
        .ok { samplePool 2 with stake := 0 } := by decide +kernel
    rw [hpauper] at hentry
    cases hentry
    exact hstake rfl
  · unfold BlockHeader.CertificateSigned
    decide +kernel

theorem sampleBlock_accepted :
    Accepted (sampleStore (samplePools 11)).clientState [samplePools 11]
      (sampleLedgerBlock emptyBody 2) := by
  cases h : (sampleStore (samplePools 11)).clientState.authenticateProbabilisticBlock paupersBlock
      [samplePools 11] with
  | ok b => exact ⟨paupersBlock, b, rfl, h⟩
  | error e =>
    have hok : ((sampleStore (samplePools 11)).clientState.authenticateProbabilisticBlock
        paupersBlock [samplePools 11]).isOk = true := by decide +kernel
    rw [h] at hok
    cases hok

/-- Of the contexts of the sample neither is true. -/
theorem sample_leaders_are_not_elected :
    ¬ (∀ decoded, Accepted (sampleStore (samplePools 11)).clientState [samplePools 11] decoded →
        decoded.header.CertificateSigned) ∧
      ¬ ∀ stakes decoded ctx,
        Accepted (sampleStore (samplePools 11)).clientState [restake stakes (samplePools 11)]
          decoded →
        epochContextForSlot [restake stakes (samplePools 11)] decoded.header.slot = some ctx →
          decoded.header.Elected (1 / 20) ctx := by
  have hadmitted := (accepted_iff (by decide)).mp sampleBlock_accepted
  obtain ⟨hsigned, helected⟩ := only_contexts_without_blocks_have_elected_leaders
    (fun text => beq_self_eq_true _)
    (fun key message => ⟨key ++ message ++ [0], beq_eq_false_iff_ne.mpr (by simp)⟩) (1 / 20)
    (sampleStore (samplePools 11)).clientState [samplePools 11]
  exact ⟨fun h => hsigned.mp h _ hadmitted, fun h => helected.mp h _ hadmitted⟩

end Sample

end cardano_ibc.probabilistic
