-- Which object the host state commits to. An order names its object by an output at the
-- object's script; nothing in the host state's own script says that the object is real.
import CardanoIbc.Ledger.Threads

namespace cardano_ibc

section Authenticity

variable [Builtins]

/-- The transaction mints the token of the next object of a kind, and the output the order is
about names that token as its own. -/
def Hashes.MintsObject (d : Hashes) (k : Kind) (tx : Transaction) : Prop :=
  ∃ host hd token, find_host_state_input tx.inputs d.host_state_nft = some host ∧
    host.output.datum = .InlineDatum (.hostState hd) ∧
    host_state_stt.selected d.hostParams k tx.outputs = some token ∧
    d.token k (k.next hd.state) = some token ∧
    assets.quantity_of tx.mint (d.policy k) token.name = 1

/-- The input the order is about sits at the script of its kind, and has the token of the object
with some number. -/
def Hashes.SpendsObject (d : Hashes) (k : Kind) (tx : Transaction) : Prop :=
  ∃ token input s, host_state_stt.selected d.hostParams k tx.outputs = some token ∧
    host_state_stt.find_input_with_auth_token tx.inputs token = some input ∧
    input.output.address.payment_credential = .Script (d.script k) ∧
    0 ≤ s ∧ d.token k s = some token

/-- The object an order writes into the commitment is a real one. -/
def Hashes.Authentic (d : Hashes) (tx : Transaction) (order : HostStateRedeemer) : Prop :=
  (∀ k, Kind.created order = some k → d.MintsObject k tx) ∧
    ∀ k, Kind.updated order = some k → d.SpendsObject k tx

/-- The policy of the object's kind has a part in the transaction: it mints something, or it is
the policy of the token the output names. -/
def Hashes.involvesPolicy (d : Hashes) (tx : Transaction) (order : HostStateRedeemer) : Bool :=
  match Kind.created order, Kind.updated order with
  | some k, _ => !(assets.tokens tx.mint (d.policy k)).isEmpty
  | none, some k => (host_state_stt.selected d.hostParams k tx.outputs).map AuthToken.policy_id ==
      some (d.policy k)
  | none, none => true

omit [Builtins] in
theorem hostParams_script (d : Hashes) (k : Kind) : d.hostParams.script k = d.script k := by
  cases k <;> rfl

variable {d : Deployment} {L : Ledger} {tx : Transaction}

theorem mintsObject_iff (h : d.Accepted L tx) (k : Kind) :
    d.MintsObject k tx ↔ assets.tokens tx.mint (d.policy k) ≠ [] := by
  constructor
  · rintro ⟨-, -, token, -, -, -, -, hone⟩ hnil
    have hzero := assets.tokens_eq_nil.mp hnil token.name
    omega
  · intro hne
    have hsome : ∃ n, assets.quantity_of tx.mint (d.policy k) n ≠ 0 := by
      by_contra hno
      refine hne (assets.tokens_eq_nil.mpr fun n => ?_)
      by_contra hn
      exact hno ⟨n, hn⟩
    obtain ⟨n, hn⟩ := hsome
    obtain ⟨host, hd, order, token, out, data, c⟩ := Deployment.object_minted h hn
    have hminted := (auth.mints_exactly c.minted).1
    rw [objectToken_policy c.token_next] at hminted
    refine ⟨host, hd, token, c.host_found, c.host_datum, ?_, c.token_next, hminted⟩
    rw [host_state_stt.selected_eq_some, hostParams_script]
    exact ⟨out, data, c.output, c.datum, c.names⟩

theorem spendsObject_iff {host : Input} {hd : HostStateDatum}
    (t : Threads d.toHashes L host hd) (h : d.Accepted L tx) {k : Kind} {token : AuthToken}
    {input : Input} (hselected : host_state_stt.selected d.hostParams k tx.outputs = some token)
    (hinput : host_state_stt.find_input_with_auth_token tx.inputs token = some input) :
    d.SpendsObject k tx ↔ token.policy_id = d.policy k := by
  constructor
  · rintro ⟨token', -, s, hselected', -, -, -, htoken⟩
    rw [hselected] at hselected'
    cases hselected'
    exact objectToken_policy htoken
  · intro hpolicy
    obtain ⟨policy_id, name⟩ := token
    simp only at hpolicy
    subst hpolicy
    have hnft := List.find?_some hinput
    have hheld : 0 < amount (d.policy k) name input := by
      rw [amount, assets.has_nft_iff.mp hnft]
      exact Int.one_pos
    have hlive := h.inputs_live input (List.mem_of_find?_eq_some hinput)
    obtain ⟨data, s, o⟩ := t.objects k input hlive name hheld
    exact ⟨_, input, s, hselected, hinput, o.at_script, o.nonneg, o.numbered⟩

/-- In every ledger the bridge can get to, an order of the host state is about a real object
just where the policy of that object's kind has a part in the transaction. -/
theorem order_is_authentic_iff (hreach : Reachable d L) (h : d.Accepted L tx)
    {order : HostStateRedeemer} (hrun : host_state_stt.spend d.hostParams order tx = some true) :
    d.Authentic tx order ↔ d.involvesPolicy tx order = true := by
  obtain ⟨host, hd, t⟩ := hreach.threads
  cases hcreated : Kind.created order with
  | some k =>
    have hnone : Kind.updated order = none := by
      cases order <;> first | rfl | cases hcreated
    simp only [Hashes.Authentic, Hashes.involvesPolicy, hcreated, hnone, Option.some.injEq,
      forall_eq', reduceCtorEq, false_imp_iff, implies_true, and_true, mintsObject_iff h]
    simp
  | none =>
    cases hupdated : Kind.updated order with
    | none => simp [Hashes.Authentic, Hashes.involvesPolicy, hcreated, hupdated]
    | some k =>
      have hlast : order ≠ .FinalizeShutdown := by
        rintro rfl
        cases hupdated
      obtain ⟨_, old, _, new, -, -, -, -, -, htransition⟩ :=
        host_state_stt.spend_spec hrun hlast
      obtain ⟨token, input, hselected, hinput⟩ :=
        host_state_stt.transition_updates htransition hupdated
      simp only [Hashes.Authentic, Hashes.involvesPolicy, hcreated, hupdated, Option.some.injEq,
        forall_eq', reduceCtorEq, false_imp_iff, implies_true, true_and,
        spendsObject_iff t h hselected hinput, hselected]
      simp

end Authenticity

section Sample

local instance authenticityBuiltins : Builtins := ledgerBuiltins

/-! ### The first client -/

def firstClientState : ClientState :=
  { chain_id := utf8 "c-1"
    trust_level := { numerator := 1, denominator := 3 }
    trusting_period := 1000000000
    unbonding_period := 2000000000
    max_clock_drift := 10
    frozen_height := height.zero_height
    latest_height := { revision_number := 1, revision_height := 5 }
    proof_specs := [iavl_spec, tendermint_spec] }

def firstConsensusState : ConsensusState :=
  { timestamp := 1000000000
    next_validators_hash := List.replicate 32 4
    root := { hash := List.replicate 32 5 } }

def firstClientToken : AuthToken :=
  { policy_id := sampleBridge.mint_client
    name := bigEndian 25 0x00a534446f3cc32f5e29f8397167a024e0f402a2f2c9db6430 }

def firstClient : ClientDatum :=
  { state :=
      { client_state := firstClientState
        consensus_states := [(firstClientState.latest_height, firstConsensusState)]
        processed_times := [(firstClientState.latest_height, 1500000000)]
        processed_heights := [(firstClientState.latest_height, 0)] }
    token := firstClientToken }

/-- The two keys part at the top of the tree: the one that is written first is the last sibling
of the other. -/
def firstClientOrder : HostStateRedeemer :=
  .CreateClient (List.replicate 64 ibc_state_commitment.empty_hash)
    (List.replicate 63 ibc_state_commitment.empty_hash ++
      [bigEndian 32 0x0a379ec088b3f2d27fe2f2c31659a88b615fd97a0d802e7ed658a63066c7ed95])

def firstHostDatum : HostStateDatum :=
  { sampleHostDatum with
    state := { sampleHostDatum.state with
      version := 1
      next_client_sequence := 1
      ibc_state_root :=
        bigEndian 32 0xfe20fc4f151fcfd82b30b72446f7fcd039e55bc2895eab47a1943423a3d8a6e4 } }

/-- Somebody creates a client as they should. -/
def firstClientTx : Transaction :=
  { inputs := [sampleHost, sampleWallet]
    reference_inputs := []
    outputs := [sampleHostOutput firstHostDatum,
      { address := atScript sampleBridge.spend_client
        value := [lovelace 9800000, (firstClientToken.policy_id, firstClientToken.name, 1)]
        datum := .InlineDatum (.client firstClient) }]
    fee := 200000
    mint := [(firstClientToken.policy_id, firstClientToken.name, 1)]
    validity_range :=
      { lower_bound := { bound_type := .Finite 1500, is_inclusive := true }
        upper_bound := { bound_type := .Finite 1600, is_inclusive := true } }
    extra_signatories := []
    redeemers := [(.Spend sampleHost.output_reference, .hostStateRedeemer firstClientOrder),
      (.Mint sampleBridge.mint_client, .mintClientRedeemer)]
    datums := []
    id := List.replicate 32 93 }

theorem firstClientTx_accepted : sampleBridge.Accepted sampleLedger firstClientTx :=
  Ledger.accepts_iff.mp (by decide +kernel)

/-- The order of the sample is taken by the host state's script. -/
theorem firstClientOrder_runs :
    host_state_stt.spend sampleBridge.hostParams firstClientOrder firstClientTx = some true := by
  have hin : sampleHost ∈ firstClientTx.inputs := List.mem_cons_self
  obtain ⟨order, hredeemer, hrun⟩ := Deployment.host_runs firstClientTx_accepted hin rfl
  cases hredeemer
  exact hrun

theorem the_first_client_is_authentic : sampleBridge.Authentic firstClientTx firstClientOrder :=
  (order_is_authentic_iff (.deployed sampleLedger_deployed) firstClientTx_accepted
    firstClientOrder_runs).mpr (by decide)

/-! ### A connection nobody opened -/

def forgedConnection : ConnectionDatum :=
  { state :=
      { client_id := utf8 "07-tendermint-0"
        versions := []
        state := .Open
        counterparty :=
          { client_id := utf8 "07-tendermint-0"
            connection_id := utf8 "connection-0"
            prefixKey := { key_prefix := utf8 "ibc" } }
        delay_period := 0 }
    token := { policy_id := [], name := [] } }

def forgedOrder : HostStateRedeemer :=
  .CreateConnection (List.replicate 64 ibc_state_commitment.empty_hash)

def forgedHostDatum : HostStateDatum :=
  { sampleHostDatum with
    state := { sampleHostDatum.state with
      version := 1
      next_connection_sequence := 1
      ibc_state_root :=
        bigEndian 32 0xe1b98c2e04d3c277899a0a0334a8f5fb7ebf2d5231957129cd6db0c4f3607f57 } }

/-- Somebody puts a connection of their own making at the script of connections, mints nothing,
and has the host state commit to it. -/
def forgedTx : Transaction :=
  { inputs := [sampleHost, sampleWallet]
    reference_inputs := []
    outputs := [sampleHostOutput forgedHostDatum,
      { address := atScript sampleBridge.spend_connection
        value := [lovelace 9800000]
        datum := .InlineDatum (.connection forgedConnection) }]
    fee := 200000
    mint := []
    validity_range :=
      { lower_bound := { bound_type := .NegativeInfinity, is_inclusive := true }
        upper_bound := { bound_type := .PositiveInfinity, is_inclusive := true } }
    extra_signatories := []
    redeemers := [(.Spend sampleHost.output_reference, .hostStateRedeemer forgedOrder)]
    datums := []
    id := List.replicate 32 92 }

theorem forgedTx_accepted : sampleBridge.Accepted sampleLedger forgedTx :=
  Ledger.accepts_iff.mp (by decide +kernel)

/-- The ledger takes a transaction by which the host state commits to a connection that was
never opened: no policy runs and no connection is spent. -/
theorem a_forged_connection_is_committed :
    Reachable sampleBridge sampleLedger ∧ sampleBridge.Accepted sampleLedger forgedTx ∧
      host_state_stt.spend sampleBridge.hostParams forgedOrder forgedTx = some true ∧
      forgedHostDatum.state.ibc_state_root ≠ sampleHostDatum.state.ibc_state_root ∧
      ¬ sampleBridge.Authentic forgedTx forgedOrder := by
  refine ⟨.deployed sampleLedger_deployed, forgedTx_accepted, ?_, by decide, ?_⟩
  · have hin : sampleHost ∈ forgedTx.inputs := List.mem_cons_self
    obtain ⟨order, hredeemer, hrun⟩ := Deployment.host_runs forgedTx_accepted hin rfl
    cases hredeemer
    exact hrun
  · intro hauthentic
    obtain ⟨-, -, token, -, -, -, -, hone⟩ := hauthentic.1 .connection rfl
    cases hone

end Sample

end cardano_ibc
