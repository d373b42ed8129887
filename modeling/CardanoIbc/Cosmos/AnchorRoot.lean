-- Whether the root that is stored for an anchor block is the block's own: a header names the
-- transaction and the output that the root is read from, and any of the block's will do.
import CardanoIbc.Cosmos.Runs

namespace cardano_ibc.probabilistic

section Law

variable [Texts] [Native]

/-- The header is accepted for a block, and with this root. -/
structure StoresRoot (store : Store) (block : LedgerBlock) (header : ProbabilisticHeader)
    (root : Bytes) : Prop where
  verified : verifyHeader store header = .ok ()
  clean : CheckForMisbehaviour store header = false
  bears : header.isCheckpoint = false
  stored : ∃ anchor height context store', anchorOf header = .ok (anchor, height) ∧
    anchor.blockCbor = some block ∧ UpdateState context store header = .ok store' ∧
    (store'.consensusState height).map ConsensusState.ibcStateRoot = some root

/-- An output of one of the block's transactions holds the host state with this root, whatever
became of the transaction and the output. -/
def LedgerBlock.Carries (block : LedgerBlock) (cs : ClientState) (root : Bytes) : Prop :=
  ∃ tx ∈ block.transactions, ∃ out ∈ tx.outputs, HoldsRoot cs out root

/-- The host state is left with this root. -/
def Leaves (cs : ClientState) (u : Unspent) (root : Bytes) : Prop :=
  ∃ ref out, u ref = some out ∧ HoldsRoot cs out root

/-- Transactions are named by texts that differ also if capitals are not told from other letters,
as those of hexadecimal digits do. -/
structure WellNamed (block : LedgerBlock) : Prop where
  named : ∀ tx ∈ block.transactions, tx.hash ≠ []
  apart : ∀ tx ∈ block.transactions, ∀ tx' ∈ block.transactions,
    (equalFold tx.hash tx'.hash = true ↔ tx.hash = tx'.hash)

/-! ## What a header may name -/

/-- The same header for another output. -/
def ProbabilisticHeader.naming (header : ProbabilisticHeader) (tx : TransactionBody) (i : Nat) :
    ProbabilisticHeader :=
  { header with hostStateTxHash := tx.hash, hostStateTxOutputIndex := i }

omit [Native] in
/-- The transaction that a text names. -/
theorem WellNamed.find {block : LedgerBlock} (h : WellNamed block)
    (hnodup : (block.transactions.map TransactionBody.hash).Nodup) {tx : TransactionBody}
    (htx : tx ∈ block.transactions) :
    block.transactions.find? (fun t => equalFold t.hash tx.hash) = some tx := by
  have hsome : (block.transactions.find? fun t => equalFold t.hash tx.hash).isSome := by
    rw [List.find?_isSome]
    exact ⟨tx, htx, (h.apart tx htx tx htx).mpr rfl⟩
  obtain ⟨found, hfound⟩ := Option.isSome_iff_exists.mp hsome
  have hmem := List.mem_of_find?_eq_some hfound
  have hequal := List.find?_some hfound
  have hname := (h.apart found hmem tx htx).mp hequal
  rw [hfound, List.inj_on_of_nodup_map hnodup hmem htx hname]

omit [Native] in
/-- Every root the block carries can be read from it. -/
theorem extract_naming {cs : ClientState} {header : ProbabilisticHeader}
    {anchor : ProbabilisticBlock} {height : Height} {block : LedgerBlock} {root : Bytes}
    (hanchor : anchorOf header = .ok (anchor, height)) (hblock : anchor.blockCbor = some block)
    (hnamed : WellNamed block) (hnodup : (block.transactions.map TransactionBody.hash).Nodup)
    {tx : TransactionBody} (htx : tx ∈ block.transactions) {i : Nat} {out : TransactionOutput}
    (hout : tx.outputs[i]? = some out) (hholds : HoldsRoot cs out root) :
    extractHostStateTxBody (header.naming tx i) = .ok tx ∧
      cs.ExtractIbcStateRootFromHostStateTx (header.naming tx i) = .ok root := by
  have hanchor' : anchorOf (header.naming tx i) = .ok (anchor, height) := hanchor
  have hbody : extractHostStateTxBody (header.naming tx i) = .ok tx := by
    simp only [extractHostStateTxBody, ExtractHostStateTxBodyFromAnchorBlock, bind_eq_ok,
      found_eq_ok]
    exact ⟨_, hanchor', block, hblock, hnamed.find hnodup htx⟩
  refine ⟨hbody, ?_⟩
  obtain ⟨hquantity, datum, hdatum, hroot⟩ := hholds
  have hhash : tx.hash ≠ [] := hnamed.named tx htx
  simp only [ClientState.ExtractIbcStateRootFromHostStateTx, ExtractIbcStateRootFromTransactionBody,
    bind_eq_ok, require_eq_ok, found_eq_ok]
  exact ⟨tx, hbody, (), by simpa [ProbabilisticHeader.naming] using hhash, (),
    by simp [ProbabilisticHeader.naming], out, hout, (), by simp [hquantity], datum, hdatum, hroot⟩

/-- The blocks of a header are authenticated whatever transaction it names in the anchor. -/
theorem authenticate_naming {cs : ClientState} {header : ProbabilisticHeader}
    {contexts : List EpochContext} {authenticated : AuthenticatedHeader} {tx : TransactionBody}
    {i : Nat} (h : cs.authenticateHeaderBlocksWithContexts header contexts = .ok authenticated)
    (hbody : extractHostStateTxBody (header.naming tx i) = .ok tx) :
    cs.authenticateHeaderBlocksWithContexts (header.naming tx i) contexts = .ok authenticated := by
  simp only [ClientState.authenticateHeaderBlocksWithContexts, bind_eq_ok, Prod.exists] at h ⊢
  obtain ⟨anchor, height, hanchor, anchorBlock, hanchorBlock, bridge, hbridge, descendants,
    hdescendants, h⟩ := h
  refine ⟨anchor, height, hanchor, anchorBlock, hanchorBlock, bridge, hbridge, descendants,
    hdescendants, ?_⟩
  cases hcheckpoint : header.isCheckpoint with
  | true =>
    rw [hcheckpoint] at h
    have hsame : (header.naming tx i).isCheckpoint = true := hcheckpoint
    rw [hsame]
    exact h
  | false =>
    rw [hcheckpoint] at h
    have hsame : (header.naming tx i).isCheckpoint = false := hcheckpoint
    simp only [hsame, Bool.not_false, if_true, bind_eq_ok, pure_eq_ok] at h ⊢
    obtain ⟨-, -, hauthenticated⟩ := h
    exact ⟨tx, hbody, hauthenticated⟩

omit [Native] in
theorem ValidateBasic_naming {header : ProbabilisticHeader} {tx : TransactionBody} {i : Nat}
    (h : header.ValidateBasic = .ok ()) (hbears : header.isCheckpoint = false)
    (hhash : tx.hash ≠ []) : (header.naming tx i).ValidateBasic = .ok () := by
  simp only [ProbabilisticHeader.ValidateBasic, bind_eq_ok, found_eq_ok, require_eq_ok,
    Prod.exists, hbears, Bool.false_eq_true, if_false] at h
  obtain ⟨trusted, htrusted, _, hzero, anchor, height, hanchor, _, hheight, _, hash, _, hcbor, _,
    hlater, _, -, hrest⟩ := h
  have hsame : (header.naming tx i).isCheckpoint = false := hbears
  simp only [ProbabilisticHeader.ValidateBasic, bind_eq_ok, found_eq_ok, require_eq_ok,
    Prod.exists, hsame, Bool.false_eq_true, if_false]
  exact ⟨trusted, htrusted, (), hzero, anchor, height, hanchor, (), hheight, (), hash, (), hcbor, (),
    hlater, (), by simpa [ProbabilisticHeader.naming] using hhash, hrest⟩

/-- All the checks together verify a header. -/
theorem Verified.verifyHeader {store : Store} {header : ProbabilisticHeader}
    {trusted : TrustedBlockState} {contexts merged : List EpochContext}
    {authenticated : AuthenticatedHeader} {ctx : EpochContext} {metrics : Metrics}
    (v : Verified store header trusted contexts merged authenticated ctx metrics) :
    probabilistic.verifyHeader store header = .ok () := by
  simp only [probabilistic.verifyHeader, verifyHeaderWithMode, bind_eq_ok, require_eq_ok,
    found_eq_ok, if_true]
  refine ⟨(), v.basic, trusted, v.trusted_found, contexts, v.normalized, merged, v.merges,
    authenticated, v.authenticates, (), v.transition, (), v.continuity, ctx, v.context, (),
    by simpa using v.depth, metrics, v.metrics_eq, (), by simpa using v.pools, (),
    by simpa using v.stake, ?_⟩
  cases hcheckpoint : header.isCheckpoint with
  | true => rfl
  | false =>
    obtain ⟨root, hroot⟩ := v.root hcheckpoint
    simp only [Bool.not_false, if_true, bind_eq_ok]
    exact ⟨root, hroot, rfl⟩

/-- An update is stored once all of it can be read, with the root that was read. -/
theorem Reads.stores {store : Store} {header : ProbabilisticHeader}
    {contexts merged : List EpochContext} {authenticated : AuthenticatedHeader}
    {trusted : TrustedBlockState} {ctx : EpochContext} {context : Context}
    {anchor : ProbabilisticBlock} {height : Height} {pruned : Store} {root : Bytes}
    {metrics : Metrics} (reads : Reads store header contexts merged authenticated trusted ctx)
    (hbears : header.isCheckpoint = false) (hanchor : anchorOf header = .ok (anchor, height))
    (hpruned : pruneOldestConsensusState context store = .ok pruned)
    (hroot : store.clientState.ExtractIbcStateRootFromHostStateTx header = .ok root)
    (hmetrics : store.clientState.computeHeaderSecurityMetrics authenticated ctx = .ok metrics) :
    ∃ store', UpdateState context store header = .ok store' ∧
      (store'.consensusState height).map ConsensusState.ibcStateRoot = some root := by
  let cons := consensusOf authenticated.anchorBlock root metrics
  have hkept : epochContextByEpoch (retainEpochContexts merged (authenticated.anchorBlock.epoch ::
      collectReferencedConsensusEpochs (pruned.setConsensus context height cons)))
      authenticated.anchorBlock.epoch = some ctx := by
    rw [byEpoch_retain List.mem_cons_self]
    exact reads.context
  refine ⟨_, UpdateState_eq_ok.mpr ⟨contexts, merged, authenticated, trusted, ctx, reads, .inr
    ⟨hbears, anchor, height, pruned, root, metrics, _, hanchor, hpruned, hroot, hmetrics,
      keepContexts_eq_ok.mpr ⟨ctx, hkept, rfl⟩, rfl⟩⟩, ?_⟩
  have hget : table.get (table.set pruned.consensusStates height cons) height = some cons := by
    rw [table.get_set, if_pos rfl]
  exact congrArg (Option.map ConsensusState.ibcStateRoot) hget

/-- A stored root is one that the block carries. -/
theorem StoresRoot.carries {store : Store} {block : LedgerBlock} {header : ProbabilisticHeader}
    {root : Bytes} (h : StoresRoot store block header root)
    (hvalid : store.clientState.Validate = .ok ()) : block.Carries store.clientState root := by
  obtain ⟨anchor, height, context, store', hanchor, hblock, hupdate, hstored⟩ := h.stored
  obtain ⟨cons, hcons, hroot⟩ := UpdateState_root hupdate h.bears hanchor
  rw [hcons, Option.map_some, Option.some.injEq] at hstored
  rw [hstored] at hroot
  obtain ⟨k, tx, out, -, hk, hout, hholds⟩ :=
    ExtractIbcStateRootFromHostStateTx_spec hvalid hanchor hblock hroot
  exact ⟨tx, List.mem_of_getElem? hk, out, List.mem_of_getElem? hout, hholds⟩

/-- Whatever root the block carries is stored by some header that is accepted, if any is. -/
theorem StoresRoot.naming {store : Store} {block : LedgerBlock} {header : ProbabilisticHeader}
    {root root' : Bytes} (h : StoresRoot store block header root) (hnamed : WellNamed block)
    (hnodup : (block.transactions.map TransactionBody.hash).Nodup)
    (hcarries : block.Carries store.clientState root') :
    ∃ header', StoresRoot store block header' root' := by
  obtain ⟨tx, htx, out, hout, hholds⟩ := hcarries
  obtain ⟨i, hi⟩ := List.mem_iff_getElem?.mp hout
  obtain ⟨anchor, height, context, store', hanchor, hblock, hupdate, -⟩ := h.stored
  obtain ⟨hbody, hroot⟩ := extract_naming hanchor hblock hnamed hnodup htx hi hholds
  have hbears : (header.naming tx i).isCheckpoint = false := h.bears
  refine ⟨header.naming tx i, ?_, h.clean, hbears, ?_⟩
  · obtain ⟨trusted, contexts, merged, authenticated, ctx, metrics, v⟩ :=
      verifyHeader_spec h.verified
    have v' : Verified store (header.naming tx i) trusted contexts merged authenticated ctx metrics :=
      { v with
        basic := ValidateBasic_naming v.basic h.bears (hnamed.named tx htx)
        authenticates := authenticate_naming v.authenticates hbody
        root := fun _ => ⟨root', hroot⟩ }
    exact v'.verifyHeader
  · obtain ⟨contexts, merged, authenticated, trusted, ctx, reads, hcases⟩ :=
      UpdateState_eq_ok.mp hupdate
    rw [h.bears] at hcases
    rcases hcases with ⟨hcheckpoint, -⟩ | ⟨-, anchor', height', pruned, root₀, metrics, cs, hanchor',
      hpruned, -, hmetrics, -, -⟩
    · cases hcheckpoint
    rw [hanchor, Except.ok.injEq, Prod.mk.injEq] at hanchor'
    obtain ⟨rfl, rfl⟩ := hanchor'
    have reads' : Reads store (header.naming tx i) contexts merged authenticated trusted ctx :=
      { reads with authenticates := authenticate_naming reads.authenticates hbody }
    obtain ⟨store'', hstored, hread⟩ :=
      reads'.stores hbears hanchor hpruned hroot hmetrics
    exact ⟨anchor, height, context, store'', hanchor, hblock, hstored, hread⟩

end Law

/-! ### Two host states in one block -/

section Sample

local instance anchorRootTexts : Texts := asciiTexts

/-- The transactions of a block the second of which spends the host state of the first. -/
def chainedBodies : Bytes :=
  [0x82] ++ (sampleBodies (List.replicate 32 2)).drop 1 ++
    ((sampleBodies (List.replicate 32 3)).drop 1).take 9 ++
    bigEndian 32 0x764477498b585d166a6f530a8e0b19221b8c649046eb5220bd56001f1bf8b5a4 ++
    (sampleBodies (List.replicate 32 3)).drop 42

/-- The other sample's digests, and those of this block. -/
abbrev chainedNative : Native :=
  { symbolicNative with
    sum256 m := bigEndian 32 ((get_first (sampleDigests ++ [
      (chainedBodies, 0x1fb4bdd043cf33a18ded3920d2cf8d94882a7054fdf8615e86b802747d6e98e0),
      ([0x82, 0xa0, 0xa0], 0x8dd911d35af54b2f5e79445e7827728de44eda5e29680eb2b6c6b14cc9044a1d),
      (bodyDigests 0x1fb4bdd043cf33a18ded3920d2cf8d94882a7054fdf8615e86b802747d6e98e0
          0x8dd911d35af54b2f5e79445e7827728de44eda5e29680eb2b6c6b14cc9044a1d
          0xd36a2619a672494604e11bb447cbcf5231e9f2ba25c2169177edc941bd50ad6c
          0x45b0cfc220ceec5b7c1c62c4d4193d38e4eba48e8815729ce75f9c0ab0e4c1c0,
        0xa57968c05a0eb96f89df102d480e1038d4832a11b2401c8a0e0f0fa98c3777ba)]) m).getD 0) }

local instance anchorRootNative : Native := chainedNative

def secondTransaction : TransactionBody :=
  { sampleTransaction (List.replicate 32 3)
      (utf8 "af5933dc77dbf13a322a182d1818cfdb81840a12a21c10d903d4a2c370c9d598") with
    inputs := [{ txHash := honestTransaction.hash, index := 0 }] }

def chainedBody : SampleBody where
  fields :=
    { transactionBodies := chainedBodies, transactionWitnessSets := [0x82, 0xa0, 0xa0],
      transactionMetadataSet := [0xa0], invalidTransactions := [0x80] }
  hash := 0xa57968c05a0eb96f89df102d480e1038d4832a11b2401c8a0e0f0fa98c3777ba
  transactions := [honestTransaction, secondTransaction]
  invalid := []

def chainedBlock : LedgerBlock := sampleLedgerBlock chainedBody 1

/-- A header for the block that names one of its transactions. -/
def chainedHeader (tx : TransactionBody) : ProbabilisticHeader :=
  sampleHeader none tx.hash chainedBody

/-- The root that is stored for the height of the anchor. -/
def anchorRoot (store : Store) (header : ProbabilisticHeader) : Option Bytes :=
  ((UpdateState sampleNow store header).toOption.bind fun s => s.consensusState 101).map
    ConsensusState.ibcStateRoot

theorem storesRoot_of_anchorRoot {store : Store} {block : LedgerBlock}
    {header : ProbabilisticHeader} {root : Bytes} (verified : verifyHeader store header = .ok ())
    (clean : CheckForMisbehaviour store header = false) (bears : header.isCheckpoint = false)
    {anchor : ProbabilisticBlock} (hanchor : anchorOf header = .ok (anchor, 101))
    (hblock : anchor.blockCbor = some block) (hroot : anchorRoot store header = some root) :
    StoresRoot store block header root := by
  unfold anchorRoot at hroot
  cases hupdate : UpdateState sampleNow store header with
  | error e => simp [hupdate, Except.toOption] at hroot
  | ok store' =>
    rw [hupdate] at hroot
    exact ⟨verified, clean, bears, anchor, 101, sampleNow, store', hanchor, hblock, hupdate, hroot⟩

/-- The transactions and the output they are paid from have different hashes. -/
theorem chained_hashes :
    sampleSource ≠ honestTransaction.hash ∧ secondTransaction.hash ≠ honestTransaction.hash ∧
      secondTransaction.hash ≠ sampleSource ∧ honestTransaction.hash ≠ [] ∧
      ({ txHash := sampleSource, index := 1 } : OutputRef) ∉ honestTransaction.spends true ∧
      { txHash := honestTransaction.hash, index := 0 } ∈ secondTransaction.spends true := by
  decide +kernel

theorem chained_first : honestTransaction.apply true sampleUnspent
    { txHash := honestTransaction.hash, index := 0 } = some (sampleOutput (List.replicate 32 2)) :=
  apply_own_output rfl

theorem chained_collateral : honestTransaction.apply true sampleUnspent
    { txHash := sampleSource, index := 1 } = some { value := [([], [], 5000000)], datum := none } := by
  obtain ⟨hsource, -, -, -, hkept, -⟩ := chained_hashes
  rw [apply_of_hash_ne hsource, if_neg hkept]
  rfl

theorem chained_fresh (i : Nat) : honestTransaction.apply true sampleUnspent
    { txHash := secondTransaction.hash, index := i } = none := by
  obtain ⟨-, hhash, hsource, -⟩ := chained_hashes
  rw [apply_of_hash_ne hhash]
  split
  · rfl
  · simp [sampleUnspent, hsource]

theorem genuine_chainedBlock : Genuine (fun _ _ => true) sampleUnspent chainedBlock := by
  have hhonest : Genuine sampleScripts sampleUnspent (sampleLedgerBlock honestBody 1) :=
    genuine_sampleLedgerBlock rfl (by decide +kernel) (by decide +kernel)
  have hfirst := hhonest.includable.1
  refine ⟨by decide +kernel, ⟨hfirst.inputs, hfirst.inputs_nodup, hfirst.unspent, hfirst.fresh,
    hfirst.balanced, rfl, fun h => (by cases h)⟩, ⟨by decide, by decide, ?_, chained_fresh, ?_, rfl,
      fun h => (by cases h)⟩, trivial⟩
  · intro ref href
    rcases List.mem_cons.mp href with rfl | href
    · exact Option.isSome_of_eq_some chained_first
    · obtain rfl := List.mem_singleton.mp href
      exact Option.isSome_of_eq_some chained_collateral
  · intro policy name hpolicy
    have hquantity : quantityAt (honestTransaction.apply true sampleUnspent) policy name
        { txHash := honestTransaction.hash, index := 0 } =
        assets.quantity_of (sampleOutput (List.replicate 32 2)).value policy name := by
      rw [quantityAt, chained_first]
      rfl
    show ([_].map (quantityAt (honestTransaction.apply true sampleUnspent) policy name)).sum + _ = _
    simp only [List.map_cons, List.map_nil, hquantity]
    simp [secondTransaction, sampleTransaction, sampleOutput, assets.quantity_of]

theorem wellNamed_honest : WellNamed (sampleLedgerBlock honestBody 1) := by
  have hsingle : ∀ tx ∈ (sampleLedgerBlock honestBody 1).transactions, tx = honestTransaction :=
    fun tx htx => List.mem_singleton.mp htx
  refine ⟨?_, ?_⟩
  · intro tx htx
    rw [hsingle tx htx]
    exact chained_hashes.2.2.2.1
  · intro tx htx tx' htx'
    rw [hsingle tx htx, hsingle tx' htx']
    exact iff_of_true (beq_self_eq_true _) rfl

theorem sampleOutput_holds {root : Bytes}
    (h : HoldsRoot (sampleStore (samplePools 11)).clientState (sampleOutput (List.replicate 32 2))
      root) :
    root = List.replicate 32 2 := by
  obtain ⟨-, datum, hdatum, hroot⟩ := h
  obtain rfl : sampleDatum (List.replicate 32 2) = datum := Option.some.inj hdatum
  have hread : ExtractIbcStateRootFromHostStateDatum (sampleDatum (List.replicate 32 2))
      (sampleStore (samplePools 11)).clientState.hostStateNftPolicyId =
        .ok (List.replicate 32 2) := by decide +kernel
  exact Except.ok.inj (hroot.symm.trans hread)

end Sample

end cardano_ibc.probabilistic
