-- The ledger: which transactions it takes and what it is after them. A script runs only where
-- the ledger makes it run: for an input at its address, or for a token of its policy.
import CardanoIbc.Ledger.Transaction
import CardanoIbc.Library.Supply

namespace cardano_ibc

/-- What a holder has of one asset. -/
def amount (p : PolicyId) (n : AssetName) (u : Input) : Int :=
  assets.quantity_of u.output.value p n

/-- The unspent outputs and every transaction there was. -/
structure Ledger where
  utxos : List Input
  past : List Bytes
  nodup : (utxos.map Input.output_reference).Nodup
  created : ∀ u ∈ utxos, u.output_reference.transaction_id ∈ past
  nonneg : ∀ u ∈ utxos, ∀ e ∈ u.output.value, 0 ≤ e.2.2

/-- The outputs of a transaction as the inputs they can be. -/
def Transaction.created (tx : Transaction) : List Input :=
  tx.outputs.mapIdx fun i output =>
    { output_reference := { transaction_id := tx.id, output_index := i }, output }

/-- The datum a script is given for an input. -/
def Transaction.datumOf (tx : Transaction) (output : Output) : Option Data :=
  match output.datum with
  | .NoDatum => none
  | .DatumHash hash => get_first tx.datums hash
  | .InlineDatum data => some data

/-- A script run for an input: its datum, its redeemer, the input and the transaction. -/
abbrev SpendScript := Option Data → Data → OutputReference → Transaction → Option Bool

/-- A script run for a policy: its redeemer, the policy and the transaction. -/
abbrev MintScript := Data → PolicyId → Transaction → Option Bool

/-- The scripts that are known. What stands behind any other hash is not. -/
structure Scripts where
  spend : ScriptHash → Option SpendScript
  mint : PolicyId → Option MintScript

namespace Transaction

/-- The assets a transaction moves. -/
def assetsOf (tx : Transaction) : List (PolicyId × AssetName) :=
  (tx.inputs.flatMap fun i => i.output.value.map fun e => (e.1, e.2.1)) ++
    (tx.outputs.flatMap fun o => o.value.map fun e => (e.1, e.2.1)) ++
    tx.mint.map fun e => (e.1, e.2.1)

def consumed (tx : Transaction) (p : PolicyId) (n : AssetName) : Int :=
  supply.total (amount p n) tx.inputs

def produced (tx : Transaction) (p : PolicyId) (n : AssetName) : Int :=
  supply.total (fun o : Output => assets.quantity_of o.value p n) tx.outputs

/-- What goes in and what is minted comes out; of lovelace the fee stays behind. -/
def balanced (tx : Transaction) : Bool :=
  tx.assetsOf.all fun (p, n) =>
    if p = ada_policy_id then assets.quantity_of tx.mint p n == 0
    else tx.consumed p n + assets.quantity_of tx.mint p n == tx.produced p n

def feePaid (tx : Transaction) : Bool :=
  0 ≤ tx.fee && tx.consumed ada_policy_id ada_asset_name ==
    tx.produced ada_policy_id ada_asset_name + tx.fee

def spendsAccepted (scripts : Scripts) (tx : Transaction) : Bool :=
  tx.inputs.all fun i =>
    match i.output.address.payment_credential with
    | .VerificationKey _ => true
    | .Script hash =>
      match scripts.spend hash with
      | none => true
      | some script =>
        match get_first tx.redeemers (.Spend i.output_reference) with
        | none => false
        | some redeemer =>
          script (tx.datumOf i.output) redeemer i.output_reference tx == some true

def mintsAccepted (scripts : Scripts) (tx : Transaction) : Bool :=
  tx.mint.all fun e =>
    (assets.tokens tx.mint e.1).isEmpty ||
    match scripts.mint e.1 with
    | none => true
    | some script =>
      match get_first tx.redeemers (.Mint e.1) with
      | none => false
      | some redeemer => script redeemer e.1 tx == some true

/-- Every redeemer is one that some script takes. -/
def redeemersNeeded (tx : Transaction) : Bool :=
  tx.redeemers.all fun r =>
    match r.1 with
    | .Mint policy => !(assets.tokens tx.mint policy).isEmpty
    | .Spend reference => tx.inputs.any fun i => i.output_reference == reference &&
        match i.output.address.payment_credential with
        | .Script _ => true
        | .VerificationKey _ => false

end Transaction

namespace Ledger

/-- The ledger takes the transaction. -/
def accepts (scripts : Scripts) (L : Ledger) (tx : Transaction) : Bool :=
  tx.inputs.all (fun i => L.utxos.contains i) &&
    tx.reference_inputs.all (fun i => L.utxos.contains i) &&
    decide (tx.inputs.map Input.output_reference).Nodup && !L.past.contains tx.id &&
    tx.outputs.all (fun o => o.value.all fun e => decide (0 ≤ e.2.2)) &&
    tx.balanced && tx.feePaid && tx.redeemersNeeded &&
    tx.spendsAccepted scripts && tx.mintsAccepted scripts

/-- What it takes for a transaction to be accepted, one fact for each rule. -/
structure Accepted (scripts : Scripts) (L : Ledger) (tx : Transaction) : Prop where
  inputs_live : ∀ i ∈ tx.inputs, i ∈ L.utxos
  references_live : ∀ i ∈ tx.reference_inputs, i ∈ L.utxos
  inputs_nodup : (tx.inputs.map Input.output_reference).Nodup
  fresh : tx.id ∉ L.past
  outputs_nonneg : ∀ o ∈ tx.outputs, ∀ e ∈ o.value, 0 ≤ e.2.2
  balanced : tx.balanced = true
  fee_paid : tx.feePaid = true
  redeemers_needed : tx.redeemersNeeded = true
  spends_accepted : tx.spendsAccepted scripts = true
  mints_accepted : tx.mintsAccepted scripts = true

theorem accepts_iff {scripts : Scripts} {L : Ledger} {tx : Transaction} :
    L.accepts scripts tx = true ↔ Accepted scripts L tx := by
  simp only [accepts, Bool.and_eq_true, List.all_eq_true, List.contains_iff_mem,
    decide_eq_true_eq, Bool.not_eq_eq_eq_not, Bool.not_true]
  constructor
  · rintro ⟨⟨⟨⟨⟨⟨⟨⟨⟨h1, h2⟩, h3⟩, h4⟩, h5⟩, h6⟩, h7⟩, h8⟩, h9⟩, h10⟩
    exact ⟨h1, h2, h3, by simpa using h4, h5, h6, h7, h8, h9, h10⟩
  · rintro ⟨h1, h2, h3, h4, h5, h6, h7, h8, h9, h10⟩
    exact ⟨⟨⟨⟨⟨⟨⟨⟨⟨h1, h2⟩, h3⟩, by simpa using h4⟩, h5⟩, h6⟩, h7⟩, h8⟩, h9⟩, h10⟩

end Ledger

/-! ## What a transaction leaves -/

theorem quantity_of_nonneg {v : Value} (h : ∀ e ∈ v, 0 ≤ e.2.2) (p : PolicyId) (n : AssetName) :
    0 ≤ assets.quantity_of v p n := by
  induction v with
  | nil => exact Int.le_refl 0
  | cons e v ih =>
    have hhead := h e List.mem_cons_self
    have htail := ih fun e' he' => h e' (List.mem_cons_of_mem e he')
    obtain ⟨p', n', q⟩ := e
    simp only [assets.quantity_of] at hhead ⊢
    split <;> omega

theorem Ledger.amount_nonneg {L : Ledger} {u : Input} (hu : u ∈ L.utxos) (p : PolicyId)
    (n : AssetName) : 0 ≤ amount p n u :=
  quantity_of_nonneg (L.nonneg u hu) p n

namespace Transaction

theorem output_of_created {tx : Transaction} {u : Input} (h : u ∈ tx.created) :
    u.output ∈ tx.outputs ∧ u.output_reference.transaction_id = tx.id := by
  simp only [created, List.mem_mapIdx] at h
  obtain ⟨i, hi, rfl⟩ := h
  exact ⟨List.getElem_mem hi, rfl⟩

theorem exists_created {tx : Transaction} {o : Output} (h : o ∈ tx.outputs) :
    ∃ u ∈ tx.created, u.output = o := by
  obtain ⟨i, hi, rfl⟩ := List.getElem_of_mem h
  refine ⟨_, List.mem_mapIdx.mpr ⟨i, hi, rfl⟩, rfl⟩

theorem created_output (tx : Transaction) : tx.created.map Input.output = tx.outputs := by
  apply List.ext_getElem
  · simp [created]
  · intro i h1 h2
    simp [created]

theorem created_nodup (tx : Transaction) :
    (tx.created.map Input.output_reference).Nodup := by
  rw [List.nodup_iff_injective_getElem]
  intro i j hij
  simp only [created, List.getElem_map, List.getElem_mapIdx, OutputReference.mk.injEq,
    true_and] at hij
  exact Fin.ext hij

theorem total_created (tx : Transaction) (p : PolicyId) (n : AssetName) :
    supply.total (amount p n) tx.created = tx.produced p n := by
  rw [produced, ← created_output tx]
  simp only [supply.total, List.map_map]
  rfl

end Transaction

namespace Ledger

variable {scripts : Scripts} {L : Ledger} {tx : Transaction}

/-- The ledger after a transaction it took. -/
def apply (L : Ledger) (tx : Transaction) (h : Accepted scripts L tx) : Ledger where
  utxos := L.utxos.filter (fun u => !tx.inputs.contains u) ++ tx.created
  past := tx.id :: L.past
  nodup := by
    rw [List.map_append, List.nodup_append]
    refine ⟨L.nodup.sublist (List.filter_sublist.map _), tx.created_nodup, ?_⟩
    intro r hr r' hr' heq
    obtain ⟨u, hu, rfl⟩ := List.mem_map.mp hr
    obtain ⟨v, hv, rfl⟩ := List.mem_map.mp hr'
    have hpast := L.created u (List.mem_of_mem_filter hu)
    rw [heq, (Transaction.output_of_created hv).2] at hpast
    exact h.fresh hpast
  created := by
    intro u hu
    rcases List.mem_append.mp hu with hold | hnew
    · exact List.mem_cons_of_mem _ (L.created u (List.mem_of_mem_filter hold))
    · rw [(Transaction.output_of_created hnew).2]
      exact List.mem_cons_self
  nonneg := by
    intro u hu
    rcases List.mem_append.mp hu with hold | hnew
    · exact L.nonneg u (List.mem_of_mem_filter hold)
    · exact h.outputs_nonneg _ (Transaction.output_of_created hnew).1

theorem mem_apply {h : Accepted scripts L tx} {u : Input} :
    u ∈ (L.apply tx h).utxos ↔ (u ∈ L.utxos ∧ u ∉ tx.inputs) ∨ u ∈ tx.created := by
  simp [apply, List.mem_filter]

/-- How much of an asset there is. -/
def supplyOf (L : Ledger) (p : PolicyId) (n : AssetName) : Int :=
  supply.total (amount p n) L.utxos

theorem supplyOf_nonneg (L : Ledger) (p : PolicyId) (n : AssetName) : 0 ≤ L.supplyOf p n :=
  supply.total_nonneg fun _ hu => amount_nonneg hu p n

theorem amount_le_supplyOf {u : Input} (hu : u ∈ L.utxos) (p : PolicyId) (n : AssetName) :
    amount p n u ≤ L.supplyOf p n :=
  supply.le_total (fun _ hv => amount_nonneg hv p n) hu

theorem exists_holder {p : PolicyId} {n : AssetName} (h : 0 < L.supplyOf p n) :
    ∃ u ∈ L.utxos, 0 < amount p n u := supply.exists_holder h

/-- Where there is at most one of an asset, two holders are the same. -/
theorem holder_unique {p : PolicyId} {n : AssetName} (h : L.supplyOf p n ≤ 1) {u v : Input}
    (hu : u ∈ L.utxos) (hv : v ∈ L.utxos) (hpu : 0 < amount p n u) (hpv : 0 < amount p n v) :
    u = v :=
  supply.holder_unique (fun _ hz => amount_nonneg hz p n) h hu hv hpu hpv

theorem Accepted.consumed_eq (h : Accepted scripts L tx) (p : PolicyId) (n : AssetName) :
    supply.total (amount p n) (L.utxos.filter fun u => tx.inputs.contains u) =
      tx.consumed p n := by
  refine supply.total_perm ?_
  rw [List.perm_ext_iff_of_nodup ((L.nodup.of_map _).filter _) (h.inputs_nodup.of_map _)]
  intro u
  simp only [List.mem_filter, List.contains_iff_mem]
  exact ⟨fun hu => hu.2, fun hu => ⟨h.inputs_live u hu, hu⟩⟩

theorem Accepted.balanced_asset (h : Accepted scripts L tx) {p : PolicyId} (hp : p ≠ ada_policy_id)
    (n : AssetName) : tx.consumed p n + assets.quantity_of tx.mint p n = tx.produced p n := by
  by_cases hmem : (p, n) ∈ tx.assetsOf
  · have := List.all_eq_true.mp h.balanced _ hmem
    simpa [hp] using this
  · -- an asset that stands nowhere in the transaction is not moved by it
    simp only [Transaction.assetsOf, List.mem_append, List.mem_flatMap, List.mem_map, not_or,
      not_exists, not_and, Prod.mk.injEq] at hmem
    obtain ⟨⟨hin, hout⟩, hmint⟩ := hmem
    have hconsumed : tx.consumed p n = 0 := by
      refine List.sum_eq_zero ?_
      intro q hq
      obtain ⟨i, hi, rfl⟩ := List.mem_map.mp hq
      exact assets.quantity_of_eq_zero fun e he hp hn => hin i hi e he hp hn
    have hproduced : tx.produced p n = 0 := by
      refine List.sum_eq_zero ?_
      intro q hq
      obtain ⟨o, ho, rfl⟩ := List.mem_map.mp hq
      exact assets.quantity_of_eq_zero fun e he hp hn => hout o ho e he hp hn
    have hminted : assets.quantity_of tx.mint p n = 0 :=
      assets.quantity_of_eq_zero fun e he hp hn => hmint e he hp hn
    omega

/-- Only minting changes how much of an asset there is. -/
theorem Accepted.supplyOf_apply (h : Accepted scripts L tx) {p : PolicyId} (hp : p ≠ ada_policy_id)
    (n : AssetName) :
    (L.apply tx h).supplyOf p n = L.supplyOf p n + assets.quantity_of tx.mint p n := by
  have hsplit := supply.total_filter (amount p n) (fun u => tx.inputs.contains u) L.utxos
  have hin := h.consumed_eq p n
  have hbal := h.balanced_asset hp n
  have hout := Transaction.total_created tx p n
  simp only [supplyOf, apply, supply.total_append]
  omega

theorem Accepted.produced_le_supplyOf (h : Accepted scripts L tx) {p : PolicyId}
    (hp : p ≠ ada_policy_id) (n : AssetName) :
    tx.produced p n ≤ L.supplyOf p n + assets.quantity_of tx.mint p n := by
  have hsplit := supply.total_filter (amount p n) (fun u => tx.inputs.contains u) L.utxos
  have hin := h.consumed_eq p n
  have hbal := h.balanced_asset hp n
  have hrest : 0 ≤ supply.total (amount p n)
      (L.utxos.filter fun u => !tx.inputs.contains u) :=
    supply.total_nonneg fun u hu => amount_nonneg (List.mem_of_mem_filter hu) p n
  simp only [supplyOf]
  omega

/-! ## The scripts that ran -/

theorem Accepted.spend_runs (h : Accepted scripts L tx) {i : Input} (hi : i ∈ tx.inputs)
    {hash : ScriptHash} (haddr : i.output.address.payment_credential = .Script hash)
    {script : SpendScript} (hscript : scripts.spend hash = some script) :
    ∃ redeemer, get_first tx.redeemers (.Spend i.output_reference) = some redeemer ∧
      script (tx.datumOf i.output) redeemer i.output_reference tx = some true := by
  have hall := List.all_eq_true.mp h.spends_accepted i hi
  simp only [haddr, hscript] at hall
  split at hall
  · cases hall
  · rename_i redeemer hred
    exact ⟨redeemer, hred, by simpa using hall⟩

theorem Accepted.mint_runs (h : Accepted scripts L tx) {p : PolicyId} {n : AssetName}
    (hn : assets.quantity_of tx.mint p n ≠ 0) {script : MintScript}
    (hscript : scripts.mint p = some script) :
    ∃ redeemer, get_first tx.redeemers (.Mint p) = some redeemer ∧
      script redeemer p tx = some true := by
  obtain ⟨e, he, rfl, -⟩ := assets.exists_of_quantity_of_ne_zero hn
  have hall := List.all_eq_true.mp h.mints_accepted e he
  have htokens : (assets.tokens tx.mint e.1).isEmpty = false := by
    rw [List.isEmpty_eq_false_iff]
    exact fun hnil => hn (assets.tokens_eq_nil.mp hnil n)
  simp only [htokens, Bool.false_or, hscript] at hall
  split at hall
  · cases hall
  · rename_i redeemer hred
    exact ⟨redeemer, hred, by simpa using hall⟩

/-- A redeemer for a policy means that something of the policy is minted. -/
theorem Accepted.mint_needed (h : Accepted scripts L tx) {p : PolicyId} {redeemer : Data}
    (hr : get_first tx.redeemers (.Mint p) = some redeemer) :
    ∃ n, assets.quantity_of tx.mint p n ≠ 0 := by
  simp only [get_first, Option.map_eq_some_iff] at hr
  obtain ⟨pair, hfind, -⟩ := hr
  have hkey : pair.1 = .Mint p := by simpa using List.find?_some hfind
  have hall := List.all_eq_true.mp h.redeemers_needed pair (List.mem_of_find?_eq_some hfind)
  simp only [hkey, Bool.not_eq_eq_eq_not, Bool.not_true, List.isEmpty_eq_false_iff] at hall
  by_contra hno
  exact hall (assets.tokens_eq_nil.mpr fun n => by
    by_contra hn
    exact hno ⟨n, hn⟩)

end Ledger

end cardano_ibc
