-- The end of a bridge: the deployer announces it, waits for the time they announced, and then
-- takes the host state's token away from its script.
import CardanoIbc.Ledger.HostThread

namespace cardano_ibc

open validator_utils

namespace host_state_stt

variable [Builtins]

/-- What it takes to end the bridge. -/
theorem finalize_spec {params : Params} {tx : Transaction}
    (h : spend params .FinalizeShutdown tx = some true) :
    ∃ host_input old_datum valid_from,
      find_host_state_input tx.inputs params.nft_policy = some host_input ∧
      host_input.output.datum = .InlineDatum (.hostState old_datum) ∧
      old_datum.deployer ∈ tx.extra_signatories ∧
      get_tx_valid_from tx.validity_range = some valid_from ∧
      host_state.validate_finalize_shutdown old_datum valid_from = true ∧
      ∀ output ∈ tx.outputs, output.address = host_input.output.address →
        hasHostNft output params.nft_policy = false := by
  simp only [spend, bind_eq_some, expect_eq_some, and_accepts, pure_eq_some] at h
  obtain ⟨host_input, hfind, old, hold, -, -, hsigned, ⟨valid_from, hfrom, hlate⟩, hgone⟩ := h
  refine ⟨host_input, old, valid_from, hfind, decode_host_state_datum_eq_some.mp hold,
    List.contains_iff_mem.mp hsigned, hfrom, hlate, ?_⟩
  intro output houtput haddress
  simp only [Bool.not_eq_eq_eq_not, Bool.not_true, List.any_eq_false, Bool.and_eq_true,
    beq_iff_eq, not_and, Bool.not_eq_true] at hgone
  exact hgone output houtput haddress

end host_state_stt

section Shutdown

variable [Builtins]

variable {d : Deployment} {start L before : Ledger} {tx enter final : Transaction}
  {past later : History} {host : Input} {hd : HostStateDatum}

namespace Threads

/-- The host state that is spent with an order is spent by that order's transition. -/
theorem hostOrder_spec (t : Threads d.toHashes L host hd) (h : d.Accepted L tx)
    {order : HostStateRedeemer} (horder : d.hostOrder tx = some order) :
    host ∈ tx.inputs ∧ hostRedeemer tx.redeemers host = some order ∧
      host_state_stt.spend d.hostParams order tx = some true := by
  simp only [Hashes.hostOrder, bind_eq_some] at horder
  obtain ⟨found, hfound, hordered⟩ := horder
  obtain ⟨hin, hnft⟩ := find_host_state_input_spec hfound
  obtain rfl := t.host_unique (h.inputs_live _ hin) hnft
  obtain ⟨order', hredeemer, hrun⟩ := Deployment.host_runs h hin t.host_script
  obtain rfl : order' = order := by
    simpa [hostRedeemer, hredeemer, Data.asHostStateRedeemer] using hordered
  exact ⟨hin, hordered, hrun⟩

/-- A transaction ends the bridge if that is the order it spends the host state with. -/
theorem finalises_of_order (t : Threads d.toHashes L host hd) (h : d.Accepted L tx)
    {order : HostStateRedeemer} (horder : d.hostOrder tx = some order)
    (hlast : order ≠ .FinalizeShutdown) : d.finalises tx = false := by
  obtain ⟨-, hordered, -⟩ := t.hostOrder_spec h horder
  simp only [Hashes.finalises, List.any_eq_false, Bool.and_eq_true, beq_iff_eq, not_and]
  intro i hi hnft hends
  obtain rfl := t.host_unique (h.inputs_live i hi) hnft
  rw [hordered] at hends
  exact hlast (Option.some.inj hends)

/-- Whoever has the host state's token once the bridge is ended, it is not the place it was. -/
theorem token_leaves (t : Threads d.toHashes L host hd) (h : d.Accepted L final)
    (horder : d.hostOrder final = some .FinalizeShutdown) :
    ∃ holder ∈ (L.apply final h).utxos,
      amount d.host_state_nft host_state_token_name holder = 1 ∧
      holder.output.address ≠ host.output.address ∧
      ∀ u ∈ (L.apply final h).utxos, 0 < amount d.host_state_nft host_state_token_name u →
        u = holder := by
  obtain ⟨hspent, -, hrun⟩ := t.hostOrder_spec h horder
  obtain ⟨host_input, _, _, hfind, -, -, -, -, hgone⟩ := host_state_stt.finalize_spec hrun
  obtain ⟨hin, hnft⟩ := find_host_state_input_spec hfind
  obtain rfl := t.host_unique (h.inputs_live _ hin) hnft
  have hsupply : (L.apply final h).supplyOf d.host_state_nft host_state_token_name = 1 := by
    rw [h.supplyOf_apply d.nft_ne_ada, t.host_supply, t.nft_not_minted h]
    rfl
  obtain ⟨holder, hlive, hheld⟩ := Ledger.exists_holder
    (show 0 < (L.apply final h).supplyOf d.host_state_nft host_state_token_name by omega)
  have hle := Ledger.amount_le_supplyOf hlive d.host_state_nft host_state_token_name
  have hone : amount d.host_state_nft host_state_token_name holder = 1 := by omega
  refine ⟨holder, hlive, hone, ?_, ?_⟩
  · intro haddress
    rcases Ledger.mem_apply.mp hlive with ⟨hold, hunspent⟩ | hnew
    · exact hunspent (t.host_unique hold (assets.has_nft_iff.mpr hone) ▸ hspent)
    · have hno := hgone holder.output (Transaction.output_of_created hnew).1 haddress
      have hyes : hasHostNft holder.output d.host_state_nft = true := assets.has_nft_iff.mpr hone
      rw [show d.hostParams.nft_policy = d.host_state_nft from rfl, hyes] at hno
      cases hno
  · intro u hu hpositive
    exact Ledger.holder_unique (by rw [hsupply]) hu hlive hpositive hheld

/-- The record an announced shutdown leaves. -/
theorem announces (t : Threads d.toHashes L host hd) (h : d.Accepted L enter)
    {grace_period_end : Int} (horder : d.hostOrder enter = some (.EnterShutdown grace_period_end)) :
    ∃ host' hd', Threads d.toHashes (L.apply enter h) host' hd' ∧
      hd'.shutdown = .ShuttingDown hd'.state.last_update_time grace_period_end ∧
      hd'.state.last_update_time < grace_period_end := by
  obtain ⟨host', hd', m⟩ := t.host_move h (t.finalises_of_order h horder nofun)
  rcases t.hostOrder_eq h m with ⟨hnone, -⟩ | ⟨order, hsome, hadvances⟩
  · rw [hnone] at horder
    cases horder
  · rw [hsome] at horder
    cases horder
    obtain ⟨hshutdown, hlate⟩ := hadvances.announced _ rfl
    exact ⟨host', hd', t.step h m, hshutdown, hlate⟩

/-- A bridge that is shutting down is ended no sooner than it announced. -/
theorem ends_late (t : Threads d.toHashes L host hd) (h : d.Accepted L final)
    (horder : d.hostOrder final = some .FinalizeShutdown) {initiated_at grace_period_end : Int}
    (hshutdown : hd.shutdown = .ShuttingDown initiated_at grace_period_end) {time : Int}
    (htime : final.validity_range.includes time = true) : grace_period_end ≤ time := by
  obtain ⟨-, -, hrun⟩ := t.hostOrder_spec h horder
  obtain ⟨host_input, old, valid_from, hfind, hold, -, hfrom, hlate, -⟩ :=
    host_state_stt.finalize_spec hrun
  obtain ⟨hin, hnft⟩ := find_host_state_input_spec hfind
  obtain rfl := t.host_unique (h.inputs_live _ hin) hnft
  rw [t.host_datum] at hold
  cases hold
  simp only [host_state.validate_finalize_shutdown, hshutdown, decide_eq_true_eq, ge_iff_le]
    at hlate
  have := valid_from_le hfrom htime
  omega

end Threads

/-- However long the bridge goes on after its end is announced, it is ended no sooner than that,
and its token is then in one other place. -/
theorem a_bridge_ends_no_sooner_than_announced {grace_period_end time : Int}
    (hstart : Deployed d.toHashes start host hd) (hbefore : Run d start past before)
    (henter : d.Accepted before enter)
    (hannounced : d.hostOrder enter = some (.EnterShutdown grace_period_end))
    (hrun : Run d (before.apply enter henter) later L) (hfinal : d.Accepted L final)
    (hends : d.hostOrder final = some .FinalizeShutdown)
    (htime : final.validity_range.includes time = true) :
    (∃ host₁ hd₁, d.OnlyHost (before.apply enter henter) host₁ hd₁ ∧
      hd₁.shutdown = .ShuttingDown hd₁.state.last_update_time grace_period_end ∧
      hd₁.state.last_update_time < grace_period_end) ∧
    grace_period_end ≤ time ∧
    ∃ host₂ hd₂, d.OnlyHost L host₂ hd₂ ∧ ∃ holder ∈ (L.apply final hfinal).utxos,
      amount d.host_state_nft host_state_token_name holder = 1 ∧
      holder.output.address ≠ host₂.output.address ∧
      ∀ u ∈ (L.apply final hfinal).utxos,
        0 < amount d.host_state_nft host_state_token_name u → u = holder := by
  obtain ⟨host₀, hd₀, t₀⟩ := hbefore.threads hstart.threads
  obtain ⟨host₁, hd₁, t₁, hshutdown, hlate⟩ := t₀.announces henter hannounced
  obtain ⟨host₂, hd₂, t₂, hthread, -⟩ := hrun.hostThread t₁
  have hkept : hd₂.shutdown = hd₁.shutdown := by
    refine (hthread.shutdown ?_).1
    rw [hshutdown]
    nofun
  exact ⟨⟨host₁, hd₁, t₁.onlyHost, hshutdown, hlate⟩,
    t₂.ends_late hfinal hends (hkept.trans hshutdown) htime,
    host₂, hd₂, t₂.onlyHost, t₂.token_leaves hfinal hends⟩

end Shutdown

/-! ## A shutdown without a grace period -/

section Sample

local instance shutdownBuiltins : Builtins := ledgerBuiltins

/-- The bridge with one client. -/
def clientLedger : Ledger := sampleLedger.apply firstClientTx firstClientTx_accepted

theorem clientLedger_run :
    Run sampleBridge sampleLedger [(sampleLedger, firstClientTx)] clientLedger :=
  .step .start firstClientTx_accepted (by decide)

def clientHost : Input :=
  { output_reference := { transaction_id := firstClientTx.id, output_index := 0 }
    output := sampleHostOutput firstHostDatum }

/-- The record says that the shutdown began at time 0 and that one millisecond was enough. -/
def shutHostDatum : HostStateDatum :=
  { firstHostDatum with
    state := { firstHostDatum.state with version := 2 }
    shutdown := .ShuttingDown 0 1 }

/-- From 1000000 to 2000000. -/
def lateRange : ValidityRange :=
  { lower_bound := { bound_type := .Finite 1000000, is_inclusive := true }
    upper_bound := { bound_type := .Finite 2000000, is_inclusive := true } }

/-- A host state with less lovelace, at some script. -/
def shutHostOutput (script : ScriptHash) (coin : Int) (hd : HostStateDatum) : Output :=
  { address := atScript script
    value := [lovelace coin, (sampleBridge.host_state_nft, host_state_token_name, 1)]
    datum := .InlineDatum (.hostState hd) }

/-- The deployer announces the end. -/
def enterTx : Transaction :=
  { inputs := [clientHost]
    reference_inputs := []
    outputs := [shutHostOutput sampleBridge.host_state_stt 1800000 shutHostDatum]
    fee := 200000
    mint := []
    validity_range := lateRange
    extra_signatories := [sampleHash 80]
    redeemers := [(.Spend clientHost.output_reference, .hostStateRedeemer (.EnterShutdown 1))]
    datums := []
    id := List.replicate 32 94 }

theorem enterTx_accepted : sampleBridge.Accepted clientLedger enterTx :=
  Ledger.accepts_iff.mp (by decide +kernel)

def shutLedger : Ledger := clientLedger.apply enterTx enterTx_accepted

def shutHost : Input :=
  { output_reference := { transaction_id := enterTx.id, output_index := 0 }
    output := shutHostOutput sampleBridge.host_state_stt 1800000 shutHostDatum }

/-- A record that says there never was a client. -/
def forgottenHostDatum : HostStateDatum :=
  { sampleHostDatum with state := { sampleHostDatum.state with version := 7 } }

/-- The deployer takes the token to a script of their own, with a record of their own. -/
def finalTx : Transaction :=
  { inputs := [shutHost]
    reference_inputs := []
    outputs := [shutHostOutput (sampleHash 99) 1600000 forgottenHostDatum]
    fee := 200000
    mint := []
    validity_range := lateRange
    extra_signatories := [sampleHash 80]
    redeemers := [(.Spend shutHost.output_reference, .hostStateRedeemer .FinalizeShutdown)]
    datums := []
    id := List.replicate 32 95 }

theorem finalTx_accepted : sampleBridge.Accepted shutLedger finalTx :=
  Ledger.accepts_iff.mp (by decide +kernel)

/-- The announcement and the end are taken in one instant, long after the time that was
announced, and the token goes to another script with a new record of the host state. -/
theorem a_bridge_ends_at_once_and_its_token_lives :
    Deployed sampleBridge.toHashes sampleLedger sampleHost sampleHostDatum ∧
      Run sampleBridge sampleLedger [(sampleLedger, firstClientTx)] clientLedger ∧
      sampleBridge.Accepted clientLedger enterTx ∧
      sampleBridge.hostOrder enterTx = some (.EnterShutdown 1) ∧
      enterTx.validity_range.includes 1500000 = true ∧ ¬ (1500000 : Int) < 1 ∧
      ∃ h : sampleBridge.Accepted shutLedger finalTx,
        sampleBridge.hostOrder finalTx = some .FinalizeShutdown ∧
        finalTx.validity_range.includes 1500000 = true ∧
        ∃ u ∈ (shutLedger.apply finalTx h).utxos,
          amount sampleBridge.host_state_nft host_state_token_name u = 1 ∧
          u.output.datum = .InlineDatum (.hostState forgottenHostDatum) :=
  ⟨sampleLedger_deployed, clientLedger_run, enterTx_accepted, by decide, by decide, by decide,
    finalTx_accepted, by decide, by decide,
    { output_reference := { transaction_id := finalTx.id, output_index := 0 }
      output := shutHostOutput (sampleHash 99) 1600000 forgottenHostDatum },
    Ledger.mem_apply.mpr (.inr (by decide)), by decide, rfl⟩

/-- The end of the sample was announced for the time it says. -/
theorem the_sample_bridge_ends_as_announced :
    (1 : Int) ≤ 1500000 ∧ ∃ host hd, sampleBridge.OnlyHost shutLedger host hd ∧
      ∃ holder ∈ (shutLedger.apply finalTx finalTx_accepted).utxos,
        holder.output.address ≠ host.output.address := by
  obtain ⟨-, hlate, host, hd, honly, holder, hlive, -, haway, -⟩ :=
    a_bridge_ends_no_sooner_than_announced sampleLedger_deployed clientLedger_run enterTx_accepted
      (show sampleBridge.hostOrder enterTx = some (.EnterShutdown 1) by decide) .start
      finalTx_accepted (by decide)
      (show finalTx.validity_range.includes 1500000 = true by decide)
  exact ⟨hlate, host, hd, honly, holder, hlive, haway⟩

end Sample

end cardano_ibc
