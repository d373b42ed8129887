-- What the transactions of a block do to the unspent outputs of the ledger, those included whose
-- scripts fail, and whether the root that the Cosmos-side client stores is one of an output that
-- the anchor block leaves behind.
import CardanoIbc.Cosmos.Rollover

namespace cardano_ibc.probabilistic

/-! ## The ledger under blocks -/

/-- The unspent outputs. -/
abbrev Unspent := OutputRef → Option TransactionOutput

def spend (refs : List OutputRef) (u : Unspent) : Unspent :=
  fun ref => if ref ∈ refs then none else u ref

/-- With these outputs of a transaction, counted from `start`. -/
def create (hash : Bytes) (start : Nat) (outs : List TransactionOutput) (u : Unspent) : Unspent :=
  fun ref =>
    if ref.txHash = hash ∧ start ≤ ref.index ∧ ref.index < start + outs.length then
      outs[ref.index - start]?
    else u ref

/-- What a transaction in a block spends: if its scripts fail, its collateral. -/
def TransactionBody.spends (tx : TransactionBody) (passes : Bool) : List OutputRef :=
  if passes then tx.inputs else tx.collateral

/-- If a transaction's scripts fail then none of its outputs is created, only what is left of the
collateral, with the index after them. -/
def TransactionBody.apply (tx : TransactionBody) (passes : Bool) (u : Unspent) : Unspent :=
  let rest := spend (tx.spends passes) u
  if passes then create tx.hash 0 tx.outputs rest
  else create tx.hash tx.outputs.length tx.collateralReturn.toList rest

/-- After the transactions, the first of which has this place in its block. -/
def applyFrom (invalid : List Nat) : Nat → List TransactionBody → Unspent → Unspent
  | _, [], u => u
  | i, tx :: txs, u => applyFrom invalid (i + 1) txs (tx.apply (i ∉ invalid) u)

def LedgerBlock.after (block : LedgerBlock) (u : Unspent) : Unspent :=
  applyFrom block.invalidTransactions 0 block.transactions u

/-- Before the transaction with this place in the block. -/
def LedgerBlock.upTo (block : LedgerBlock) (k : Nat) (u : Unspent) : Unspent :=
  applyFrom block.invalidTransactions 0 (block.transactions.take k) u

def quantityAt (u : Unspent) (policy name : Bytes) (ref : OutputRef) : Int :=
  ((u ref).map fun out => assets.quantity_of out.value policy name).getD 0

/-- A transaction that may be put in a block. `passes` is what the block says of its scripts, and
`scripts` what they do. -/
structure Includable (scripts : Unspent → TransactionBody → Bool) (u : Unspent)
    (tx : TransactionBody) (passes : Bool) : Prop where
  inputs : tx.inputs ≠ []
  inputs_nodup : tx.inputs.Nodup
  unspent : ∀ ref ∈ tx.inputs ++ tx.collateral, (u ref).isSome
  fresh : ∀ i, u { txHash := tx.hash, index := i } = none
  balanced : ∀ policy name, policy ≠ [] →
    (tx.inputs.map (quantityAt u policy name)).sum + assets.quantity_of tx.mint policy name =
      (tx.outputs.map fun out => assets.quantity_of out.value policy name).sum
  outcome : passes = scripts u tx
  collateral : passes = false → tx.collateral ≠ []

def IncludableFrom (scripts : Unspent → TransactionBody → Bool) (invalid : List Nat) :
    Nat → List TransactionBody → Unspent → Prop
  | _, [], _ => True
  | i, tx :: txs, u =>
    Includable scripts u tx (i ∉ invalid) ∧
      IncludableFrom scripts invalid (i + 1) txs (tx.apply (i ∉ invalid) u)

/-- A block of the chain, on top of these unspent outputs. -/
structure Genuine (scripts : Unspent → TransactionBody → Bool) (u : Unspent) (block : LedgerBlock) :
    Prop where
  hashes : (block.transactions.map TransactionBody.hash).Nodup
  includable : IncludableFrom scripts block.invalidTransactions 0 block.transactions u

/-- No transaction of the block from this place on spends the output. -/
def LedgerBlock.Keeps (block : LedgerBlock) (start : Nat) (ref : OutputRef) : Prop :=
  ∀ j tx, start ≤ j → block.transactions[j]? = some tx →
    ref ∉ tx.spends (j ∉ block.invalidTransactions)

/-! ## What is left of an output -/

theorem apply_of_hash_ne {tx : TransactionBody} {ref : OutputRef} (h : ref.txHash ≠ tx.hash)
    (passes : Bool) (u : Unspent) :
    tx.apply passes u ref = if ref ∈ tx.spends passes then none else u ref := by
  cases passes <;> simp [TransactionBody.apply, create, spend, h]

theorem apply_own_output {tx : TransactionBody} {u : Unspent} {i : Nat} {out : TransactionOutput}
    (hout : tx.outputs[i]? = some out) :
    tx.apply true u { txHash := tx.hash, index := i } = some out := by
  obtain ⟨hlt, heq⟩ := List.getElem?_eq_some_iff.mp hout
  simp [TransactionBody.apply, create, hlt, heq]

/-- The ordinary outputs of a transaction whose scripts fail are not there. -/
theorem apply_failed {tx : TransactionBody} {u : Unspent} {i : Nat} (hlt : i < tx.outputs.length)
    (hfresh : u { txHash := tx.hash, index := i } = none) :
    tx.apply false u { txHash := tx.hash, index := i } = none := by
  have hle : ¬ tx.outputs.length ≤ i := by omega
  simp [TransactionBody.apply, create, spend, hle, hfresh]

/-- Transactions with other hashes leave an output alone or spend it. -/
theorem applyFrom_of_hash_ne {invalid : List Nat} {ref : OutputRef} {txs : List TransactionBody} :
    ∀ {i : Nat} {u : Unspent}, (∀ tx ∈ txs, ref.txHash ≠ tx.hash) →
      ∀ {out : TransactionOutput}, applyFrom invalid i txs u ref = some out ↔
        u ref = some out ∧
          ∀ (j : Nat) (tx : TransactionBody), txs[j]? = some tx →
            ref ∉ tx.spends (i + j ∉ invalid) := by
  induction txs with
  | nil => simp [applyFrom]
  | cons tx txs ih =>
    intro i u hne out
    have hrest : ∀ t ∈ txs, ref.txHash ≠ t.hash := fun t ht => hne t (List.mem_cons_of_mem _ ht)
    rw [applyFrom, ih hrest, apply_of_hash_ne (hne tx (by simp))]
    constructor
    · rintro ⟨hhead, htail⟩
      split at hhead
      · cases hhead
      · rename_i hkept
        refine ⟨hhead, fun j t ht => ?_⟩
        cases j with
        | zero =>
          simp only [List.getElem?_cons_zero, Option.some.injEq] at ht
          simpa [← ht] using hkept
        | succ j => simpa [Nat.add_assoc, Nat.add_comm 1 j] using htail j t (by simpa using ht)
    · rintro ⟨hbefore, hkept⟩
      have hhead : ref ∉ tx.spends (i ∉ invalid) := by simpa using hkept 0 tx (by simp)
      refine ⟨by rw [if_neg hhead]; exact hbefore, fun j t ht => ?_⟩
      simpa [Nat.add_assoc, Nat.add_comm 1 j] using hkept (j + 1) t (by simpa using ht)

theorem applyFrom_append (invalid : List Nat) (txs₁ txs₂ : List TransactionBody) :
    ∀ (i : Nat) (u : Unspent), applyFrom invalid i (txs₁ ++ txs₂) u =
      applyFrom invalid (i + txs₁.length) txs₂ (applyFrom invalid i txs₁ u) := by
  induction txs₁ with
  | nil => simp [applyFrom]
  | cons tx txs ih =>
    intro i u
    simp [applyFrom, ih, Nat.add_assoc, Nat.add_comm 1]

theorem IncludableFrom.at {scripts : Unspent → TransactionBody → Bool} {invalid : List Nat}
    {txs : List TransactionBody} :
    ∀ {i : Nat} {u : Unspent}, IncludableFrom scripts invalid i txs u →
      ∀ {k : Nat} {tx : TransactionBody}, txs[k]? = some tx →
        Includable scripts (applyFrom invalid i (txs.take k) u) tx (i + k ∉ invalid) := by
  induction txs with
  | nil => simp
  | cons head txs ih =>
    intro i u h k tx hk
    cases k with
    | zero =>
      simp only [List.getElem?_cons_zero, Option.some.injEq] at hk
      simpa [applyFrom, ← hk] using h.1
    | succ k =>
      have := ih h.2 (show txs[k]? = some tx by simpa using hk)
      simpa [applyFrom, Nat.add_assoc, Nat.add_comm 1 k] using this

/-- A block around one of its transactions. -/
theorem LedgerBlock.after_eq {block : LedgerBlock} {k : Nat} {tx : TransactionBody}
    (hk : block.transactions[k]? = some tx) (u : Unspent) :
    block.after u = applyFrom block.invalidTransactions (k + 1) (block.transactions.drop (k + 1))
      (tx.apply (k ∉ block.invalidTransactions) (block.upTo k u)) := by
  obtain ⟨hlt, heq⟩ := List.getElem?_eq_some_iff.mp hk
  have hsplit : block.transactions =
      block.transactions.take k ++ tx :: block.transactions.drop (k + 1) := by
    rw [← heq, List.getElem_cons_drop, List.take_append_drop]
  have hlength : (block.transactions.take k).length = k := by simp; omega
  unfold LedgerBlock.after LedgerBlock.upTo
  conv_lhs => rw [hsplit]
  rw [applyFrom_append, hlength, Nat.zero_add, applyFrom]

theorem hash_ne_of_later {txs : List TransactionBody}
    (hnodup : (txs.map TransactionBody.hash).Nodup) {k : Nat} {tx : TransactionBody}
    (hk : txs[k]? = some tx) : ∀ t ∈ txs.drop (k + 1), tx.hash ≠ t.hash := by
  intro t ht heq
  obtain ⟨j, hj⟩ := List.mem_iff_getElem?.mp ht
  rw [List.getElem?_drop] at hj
  obtain ⟨hlt, -⟩ := List.getElem?_eq_some_iff.mp hj
  have hsame : (txs.map TransactionBody.hash)[k]? = (txs.map TransactionBody.hash)[k + 1 + j]? := by
    simp [hk, hj, heq]
  have := (List.getElem?_inj (by simp; omega) hnodup).mp hsame
  omega

theorem Genuine.valid_iff {scripts : Unspent → TransactionBody → Bool} {u : Unspent}
    {block : LedgerBlock} (hgenuine : Genuine scripts u block) {k : Nat} {tx : TransactionBody}
    (hk : block.transactions[k]? = some tx) :
    k ∉ block.invalidTransactions ↔ scripts (block.upTo k u) tx = true := by
  have houtcome := (hgenuine.includable.at hk).outcome
  rw [Nat.zero_add] at houtcome
  rw [LedgerBlock.upTo, ← houtcome, decide_eq_true_iff]

/-- An output of a transaction in a genuine block is there after the block just if the
transaction's scripts pass and no later transaction of the block spends it. -/
theorem Genuine.output_kept_iff {scripts : Unspent → TransactionBody → Bool} {u : Unspent}
    {block : LedgerBlock} (hgenuine : Genuine scripts u block) {k i : Nat} {tx : TransactionBody}
    (hk : block.transactions[k]? = some tx) {out out' : TransactionOutput}
    (hout : tx.outputs[i]? = some out) :
    block.after u { txHash := tx.hash, index := i } = some out' ↔
      out' = out ∧ scripts (block.upTo k u) tx = true ∧
        block.Keeps (k + 1) { txHash := tx.hash, index := i } := by
  have hincludable := hgenuine.includable.at hk
  rw [Nat.zero_add] at hincludable
  obtain ⟨hlt, -⟩ := List.getElem?_eq_some_iff.mp hout
  have houtcome : decide (k ∉ block.invalidTransactions) = scripts (block.upTo k u) tx :=
    hincludable.outcome
  rw [LedgerBlock.after_eq hk, applyFrom_of_hash_ne (hash_ne_of_later hgenuine.hashes hk)]
  have hkeeps : (∀ (j : Nat) (t : TransactionBody),
      (block.transactions.drop (k + 1))[j]? = some t →
        ({ txHash := tx.hash, index := i } : OutputRef) ∉
          t.spends (k + 1 + j ∉ block.invalidTransactions)) ↔
      block.Keeps (k + 1) { txHash := tx.hash, index := i } := by
    constructor
    · intro h j t hj ht
      have := h (j - (k + 1)) t (by rw [List.getElem?_drop]; rwa [Nat.add_sub_cancel' hj])
      rwa [Nat.add_sub_cancel' hj] at this
    · intro h j t ht
      exact h (k + 1 + j) t (by omega) (by rwa [List.getElem?_drop] at ht)
  rw [hkeeps, houtcome]
  cases hscripts : scripts (block.upTo k u) tx with
  | true => simp [apply_own_output hout, eq_comm]
  | false =>
    have hnone : tx.apply false (block.upTo k u) { txHash := tx.hash, index := i } = none :=
      apply_failed hlt (hincludable.fresh i)
    simp [hnone]

/-! ## The stored root -/

section Law

variable [Texts] [Native]

/-- The output holds the host state's token, and a datum with this root. -/
def HoldsRoot (cs : ClientState) (out : TransactionOutput) (root : Bytes) : Prop :=
  assets.quantity_of out.value cs.hostStateNftPolicyId cs.hostStateNftTokenName = 1 ∧
    ∃ datum, out.datum = some datum ∧
      ExtractIbcStateRootFromHostStateDatum datum cs.hostStateNftPolicyId = .ok root

/-- The place in the block of the transaction that a header names. -/
def namedTransaction (header : ProbabilisticHeader) (block : LedgerBlock) : Option Nat :=
  block.transactions.findIdx? fun tx => equalFold tx.hash header.hostStateTxHash

omit [Native] in
theorem names_token_of_valid {cs : ClientState} (hvalid : cs.Validate = .ok ()) :
    cs.hostStateNftPolicyId ≠ [] ∧ cs.hostStateNftTokenName ≠ [] := by
  simp only [ClientState.Validate, bind_eq_ok, require_eq_ok] at hvalid
  obtain ⟨_, -, _, -, _, -, _, -, _, hpolicy, _, hname, -⟩ := hvalid
  exact ⟨fun h => by simp [h] at hpolicy, fun h => by simp [h] at hname⟩

omit [Native] in
/-- What a root is read from. -/
theorem ExtractIbcStateRootFromHostStateTx_spec {cs : ClientState} {header : ProbabilisticHeader}
    {anchor : ProbabilisticBlock} {height : Height} {block : LedgerBlock} {root : Bytes}
    (hvalid : cs.Validate = .ok ()) (hanchor : anchorOf header = .ok (anchor, height))
    (hblock : anchor.blockCbor = some block)
    (hroot : cs.ExtractIbcStateRootFromHostStateTx header = .ok root) :
    ∃ k tx out, namedTransaction header block = some k ∧ block.transactions[k]? = some tx ∧
      tx.outputs[header.hostStateTxOutputIndex]? = some out ∧ HoldsRoot cs out root := by
  simp only [ClientState.ExtractIbcStateRootFromHostStateTx, extractHostStateTxBody,
    ExtractHostStateTxBodyFromAnchorBlock, ExtractIbcStateRootFromTransactionBody, bind_eq_ok,
    found_eq_ok, require_eq_ok, hanchor, Except.ok.injEq, exists_eq_left', hblock,
    Option.some.injEq] at hroot
  obtain ⟨tx, hnamed, _, -, _, -, out, hout, _, htoken, datum, hdatum, hread⟩ := hroot
  obtain ⟨hequal, k, hlt, htx, hbefore⟩ := List.find?_eq_some_iff_getElem.mp hnamed
  have hk : namedTransaction header block = some k :=
    List.findIdx?_eq_some_iff_getElem.mpr ⟨hlt, by simpa [htx] using hequal, by simpa using hbefore⟩
  -- a valid client names the token, so that the quantity is checked
  obtain ⟨hpolicy, hname⟩ := names_token_of_valid hvalid
  have hquantity : assets.quantity_of out.value cs.hostStateNftPolicyId
      cs.hostStateNftTokenName = 1 := by
    simpa [hpolicy, hname] using htoken
  exact ⟨k, tx, out, hk, by simp [hlt, htx], hout, hquantity, datum, hdatum, hread⟩

/-- The root that is stored at the height of a header that is no checkpoint. -/
theorem UpdateState_root {context : Context} {store store' : Store}
    {header : ProbabilisticHeader} {anchor : ProbabilisticBlock} {height : Height}
    (hstored : UpdateState context store header = .ok store')
    (hcheckpoint : header.isCheckpoint = false)
    (hanchor : anchorOf header = .ok (anchor, height)) :
    ∃ cons, store'.consensusState height = some cons ∧
      store.clientState.ExtractIbcStateRootFromHostStateTx header = .ok cons.ibcStateRoot := by
  simp only [UpdateState, bind_eq_ok, pure_eq_ok, hcheckpoint, Bool.false_eq_true, if_false,
    hanchor, Except.ok.injEq, exists_eq_left'] at hstored
  obtain ⟨_, -, _, -, _, -, _, -, _, -, _, -, pruned, -, root, hroot, metrics, -, cs, -, rfl⟩ :=
    hstored
  exact ⟨_, (table.get_set _ _ _ _).trans (if_pos rfl), hroot⟩

/-- A root stored for a genuine anchor block is that of an output which is there after the block
just if the scripts of the named transaction pass and no later transaction of the block spends the
output. -/
theorem stored_root_is_on_chain_iff {context : Context} {store store' : Store}
    {header : ProbabilisticHeader} {anchor : ProbabilisticBlock} {height : Height}
    {block : LedgerBlock} {scripts : Unspent → TransactionBody → Bool} {before : Unspent}
    (hvalid : store.clientState.Validate = .ok ())
    (hstored : UpdateState context store header = .ok store')
    (hcheckpoint : header.isCheckpoint = false)
    (hanchor : anchorOf header = .ok (anchor, height)) (hblock : anchor.blockCbor = some block)
    (hgenuine : Genuine scripts before block) :
    ∃ k tx cons, namedTransaction header block = some k ∧ block.transactions[k]? = some tx ∧
      store'.consensusState height = some cons ∧
      let ref : OutputRef := { txHash := tx.hash, index := header.hostStateTxOutputIndex }
      ((k ∉ block.invalidTransactions ∧ ∃ out, block.after before ref = some out ∧
          HoldsRoot store.clientState out cons.ibcStateRoot) ↔
        scripts (block.upTo k before) tx = true ∧ block.Keeps (k + 1) ref) := by
  obtain ⟨cons, hcons, hroot⟩ := UpdateState_root hstored hcheckpoint hanchor
  obtain ⟨k, tx, out, hnamed, hk, hout, hholds⟩ :=
    ExtractIbcStateRootFromHostStateTx_spec hvalid hanchor hblock hroot
  refine ⟨k, tx, cons, hnamed, hk, hcons, ?_⟩
  simp only [hgenuine.output_kept_iff hk hout]
  constructor
  · rintro ⟨-, -, ⟨-, hkept⟩, -⟩
    exact hkept
  · intro hkept
    exact ⟨(hgenuine.valid_iff hk).mpr hkept.1, out, ⟨rfl, hkept⟩, hholds⟩

end Law

/-! ## A transaction whose scripts fail -/

section Sample

local instance : Texts := asciiTexts

local instance : Native := symbolicNative

/-- A host state with its root, and an output for collateral. -/
def sampleUnspent : Unspent := fun ref =>
  if ref = { txHash := sampleSource, index := 0 } then some (sampleOutput (List.replicate 32 1))
  else if ref = { txHash := sampleSource, index := 1 } then
    some { value := [([], [], 5000000)], datum := none }
  else none

/-- The forged transaction's scripts fail. -/
def sampleScripts (_ : Unspent) (tx : TransactionBody) : Bool := tx.hash != forgedTransaction.hash

/-- The block in which the forged transaction is counted as invalid. -/
def failedBody : SampleBody where
  fields :=
    { transactionBodies := sampleBodies (List.replicate 32 66),
      transactionWitnessSets := [0x81, 0xa0], transactionMetadataSet := [0xa0],
      invalidTransactions := [0x81, 0x00] }
  hash := 0xfcc70a4fce0f8e55cf24cb64addcec865594b57115e3cd4bed699a804ee8a3a8
  transactions := [forgedTransaction]
  invalid := [0]

def honestTransaction : TransactionBody :=
  sampleTransaction (List.replicate 32 2)
    (utf8 "764477498b585d166a6f530a8e0b19221b8c649046eb5220bd56001f1bf8b5a4")

/-- A block with a transaction whose scripts pass. -/
def honestBody : SampleBody where
  fields :=
    { transactionBodies := sampleBodies (List.replicate 32 2),
      transactionWitnessSets := [0x81, 0xa0], transactionMetadataSet := [0xa0],
      invalidTransactions := [0x80] }
  hash := 0x8d110ee35e0a4d3a09121ccd42b065aeae2630d17f586adda2412a21425a8dd0
  transactions := [honestTransaction]
  invalid := []

def failedHeader : ProbabilisticHeader := sampleHeader none forgedTransaction.hash failedBody

def honestHeader : ProbabilisticHeader := sampleHeader none honestTransaction.hash honestBody

/-- A block with one sample transaction, which the block judges as its scripts do. -/
theorem genuine_sampleLedgerBlock {body : SampleBody} {root hash : Bytes} {i : Nat}
    (htxs : body.transactions = [sampleTransaction root hash]) (hhash : hash ≠ sampleSource)
    (houtcome : decide (0 ∉ body.invalid) = (hash != forgedTransaction.hash)) :
    Genuine sampleScripts sampleUnspent (sampleLedgerBlock body i) := by
  refine ⟨by simp [sampleLedgerBlock, htxs], ?_⟩
  simp only [sampleLedgerBlock, htxs, IncludableFrom, and_true]
  refine ⟨by simp [sampleTransaction], by simp [sampleTransaction], ?_, ?_, ?_, houtcome,
    by simp [sampleTransaction]⟩
  · simp [sampleTransaction, sampleUnspent]
  · intro i
    simp [sampleTransaction, sampleUnspent, hhash]
  · intro policy name hpolicy
    simp [sampleTransaction, quantityAt, sampleUnspent, sampleOutput, assets.quantity_of]

theorem failedHeader_stored :
    rootAfter (sampleStore (samplePools 11)) failedHeader = some (List.replicate 32 66) := by
  decide +kernel

/-- A header is verified and a root stored from a transaction of a genuine block whose scripts
fail. After that block the host state is where it was, with its own root. -/
theorem a_failed_transaction_gives_the_root :
    Genuine sampleScripts sampleUnspent (sampleLedgerBlock failedBody 1) ∧
      verifyHeader (sampleStore (samplePools 11)) failedHeader = .ok () ∧
      CheckForMisbehaviour (sampleStore (samplePools 11)) failedHeader = false ∧
      rootAfter (sampleStore (samplePools 11)) failedHeader = some (List.replicate 32 66) ∧
      0 ∈ (sampleLedgerBlock failedBody 1).invalidTransactions ∧
      (sampleLedgerBlock failedBody 1).after sampleUnspent
        { txHash := forgedTransaction.hash, index := 0 } = none ∧
      ((sampleLedgerBlock failedBody 1).after sampleUnspent
        { txHash := sampleSource, index := 0 }).bind TransactionOutput.datum =
          some (sampleDatum (List.replicate 32 1)) := by
  refine ⟨genuine_sampleLedgerBlock rfl (by decide +kernel) (by decide +kernel),
    by decide +kernel, by decide +kernel, failedHeader_stored, by decide,
    by decide +kernel, ?_⟩
  have hkept : forgedTransaction.apply false sampleUnspent { txHash := sampleSource, index := 0 } =
      if { txHash := sampleSource, index := 0 } ∈ forgedTransaction.spends false then none
      else sampleUnspent { txHash := sampleSource, index := 0 } :=
    apply_of_hash_ne (by decide +kernel) false sampleUnspent
  have hcollateral : ¬ { txHash := sampleSource, index := 0 } ∈ forgedTransaction.spends false := by
    decide +kernel
  show (forgedTransaction.apply false sampleUnspent
    { txHash := sampleSource, index := 0 }).bind TransactionOutput.datum = _
  rw [hkept, if_neg hcollateral]
  rfl

theorem honestHeader_stored :
    rootAfter (sampleStore (samplePools 11)) honestHeader = some (List.replicate 32 2) := by
  decide +kernel

theorem an_honest_root_is_on_chain :
    ∃ store', UpdateState sampleNow (sampleStore (samplePools 11)) honestHeader = .ok store' ∧
    ∃ k tx cons, namedTransaction honestHeader (sampleLedgerBlock honestBody 1) = some k ∧
      (sampleLedgerBlock honestBody 1).transactions[k]? = some tx ∧
      store'.consensusState 101 = some cons ∧
      let ref : OutputRef := { txHash := tx.hash, index := honestHeader.hostStateTxOutputIndex }
      ((k ∉ (sampleLedgerBlock honestBody 1).invalidTransactions ∧
          ∃ out, (sampleLedgerBlock honestBody 1).after sampleUnspent ref = some out ∧
            HoldsRoot (sampleStore (samplePools 11)).clientState out cons.ibcStateRoot) ↔
        sampleScripts ((sampleLedgerBlock honestBody 1).upTo k sampleUnspent) tx = true ∧
          (sampleLedgerBlock honestBody 1).Keeps (k + 1) ref) := by
  have hvalid : (sampleStore (samplePools 11)).clientState.Validate = .ok () := by decide +kernel
  have hgenuine : Genuine sampleScripts sampleUnspent (sampleLedgerBlock honestBody 1) :=
    genuine_sampleLedgerBlock rfl (by decide +kernel) (by decide +kernel)
  obtain ⟨store', hstored⟩ := exists_store_of_rootAfter honestHeader_stored
  exact ⟨store', hstored, stored_root_is_on_chain_iff hvalid hstored rfl rfl rfl hgenuine⟩

end Sample

end cardano_ibc.probabilistic
