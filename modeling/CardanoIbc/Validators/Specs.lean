-- What a script that said yes has seen. Each script of an object or an operation is taken apart
-- here once; what follows about the ledger rests on these facts and never on the scripts.
import CardanoIbc.Validators.Operations

namespace cardano_ibc

open validator_utils

/-! ## Creating an object -/

/-- An object as its creation leaves it. -/
def Data.Initial : Data → Prop
  | .client d => ∃ consensus_state, d.state.consensus_states =
      [(d.state.client_state.latest_height, consensus_state)]
  | .channel d => channel_datum.isFresh d.state = true
  | _ => True

/-- A minting script of objects has seen the host state spent with the order to create one, and
the one output at the object's script, which has the new token and nothing else. -/
structure Creation [Builtins] (k : Kind) (nft policy : PolicyId) (script : ScriptHash)
    (tx : Transaction) (host : Input) (hd : HostStateDatum) (order : HostStateRedeemer)
    (token : AuthToken) (out : Output) (data : Data) : Prop where
  host_found : find_host_state_input tx.inputs nft = some host
  host_datum : host.output.datum = .InlineDatum (.hostState hd)
  ordered : hostRedeemer tx.redeemers host = some order
  creates : Kind.created order = some k
  token_next : objectToken nft policy k.nameText (k.next hd.state) = some token
  output : find_script_outputs tx.outputs script = [out]
  datum : out.datum = .InlineDatum data
  names : k.tokenIn data = some token
  minted : auth.mint_auth_token tx.mint token = true
  only : auth.contains_only_auth_tokens out [token] = true
  initial : data.Initial

section Minting

variable [Builtins] {nft policy : PolicyId} {script : ScriptHash} {tx : Transaction}

theorem mint_client_stt.mint_spec (h : mint_client_stt.mint script nft policy tx = some true) :
    ∃ host hd order token out data,
      Creation .client nft policy script tx host hd order token out data := by
  simp only [mint_client_stt.mint, bind_eq_some, exactlyOne_eq_some, get_inline_datum_eq_some,
    Data.asHostState_eq_some, Data.asClient_eq_some, and_accepts, pure_eq_some,
    Bool.and_eq_true, beq_iff_eq] at h
  obtain ⟨host, hhost, _, hhd, hd, rfl, token, htoken, out, hout, _, hdatum, datum, rfl,
    valid, hvalid, -, -, -, -, -, -, -, -, ⟨⟨⟨⟨⟨hmint, honly⟩, rfl⟩, -⟩, -⟩, -⟩, order, horder,
    hcreate⟩ := h
  obtain ⟨hnames, hinitial⟩ := client_datum.is_initialized_valid_spec hvalid
  refine ⟨host, hd, order, token, out, .client datum, hhost, hhd, horder, ?_, htoken, hout,
    hdatum, by rw [← hnames]; rfl, hmint, honly, hinitial⟩
  split at hcreate
  · rfl
  · simp at hcreate

/-- What a client's policy has seen of the client: it is valid, active, and was processed when the
transaction begins. -/
structure Initialises (tx : Transaction) (c : ClientDatum) : Prop where
  valid : client_datum.is_initialized_valid c c.token = some true
  active : ∃ valid_to, get_tx_valid_to tx.validity_range = some valid_to ∧
    clientIsActive c.state valid_to = true
  processed : ∃ valid_from, get_tx_valid_from tx.validity_range = some valid_from ∧
    get_first c.state.processed_times c.state.client_state.latest_height =
      some (valid_from * 1000000) ∧
    get_first c.state.processed_heights c.state.client_state.latest_height =
      some (client_datum.processed_height_from_time (valid_from * 1000000))

theorem mint_client_stt.mint_initialises
    (h : mint_client_stt.mint script nft policy tx = some true) :
    ∃ out c, find_script_outputs tx.outputs script = [out] ∧
      out.datum = .InlineDatum (.client c) ∧ Initialises tx c := by
  simp only [mint_client_stt.mint, bind_eq_some, exactlyOne_eq_some, get_inline_datum_eq_some,
    Data.asHostState_eq_some, Data.asClient_eq_some, and_accepts, pure_eq_some,
    Bool.and_eq_true, beq_iff_eq] at h
  obtain ⟨_, -, _, -, _, -, token, -, out, hout, _, hdatum, c, rfl, valid, hvalid, valid_to, hto,
    valid_from, hfrom, time, htime, height, hheight, ⟨⟨⟨⟨-, rfl⟩, rfl⟩, rfl⟩, hactive⟩, -⟩ := h
  obtain ⟨rfl, -⟩ := client_datum.is_initialized_valid_spec hvalid
  exact ⟨out, c, hout, hdatum, hvalid, ⟨valid_to, hto, hactive⟩, valid_from, hfrom, htime, hheight⟩

theorem mint_connection_stt.mint_spec {client_policy verify_proof : PolicyId}
    {redeemer : MintConnectionRedeemer}
    (h : mint_connection_stt.mint client_policy verify_proof script nft redeemer policy tx =
      some true) :
    ∃ host hd order token out data,
      Creation .connection nft policy script tx host hd order token out data := by
  simp only [mint_connection_stt.mint, bind_eq_some, exactlyOne_eq_some,
    get_inline_datum_eq_some, Data.asHostState_eq_some, Data.asConnection_eq_some] at h
  obtain ⟨host, hhost, _, hhd, hd, rfl, out, hout, _, hdatum, datum, rfl, _, -, _, -, token,
    htoken, h⟩ := h
  have hrest : datum.token = token ∧ auth.mint_auth_token tx.mint token = true ∧
      auth.contains_only_auth_tokens out [token] = true ∧
      ∃ order, hostRedeemer tx.redeemers host = some order ∧
        Kind.created order = some .connection := by
    cases redeemer with
    | ConnOpenInit =>
      simp only [bind_eq_some, and_accepts, pure_eq_some, Bool.and_eq_true] at h
      obtain ⟨valid, hvalid, ⟨⟨⟨-, hmint⟩, honly⟩, rfl⟩, order, horder, hcreate⟩ := h
      refine ⟨connection_datum.openValid_token hvalid, hmint, honly, order, horder, ?_⟩
      split at hcreate
      · rfl
      · simp at hcreate
    | ConnOpenTry _ _ _ _ =>
      simp only [bind_eq_some, and_accepts, pure_eq_some, Bool.and_eq_true] at h
      obtain ⟨valid, hvalid, ⟨⟨⟨-, hmint⟩, honly⟩, rfl⟩, order, horder, hcreate⟩ := h
      rw [and_accepts] at hvalid
      refine ⟨connection_datum.openValid_token hvalid.1, hmint, honly, order, horder, ?_⟩
      split at hcreate
      · rfl
      · simp at hcreate
  obtain ⟨hnames, hmint, honly, order, horder, hcreate⟩ := hrest
  exact ⟨host, hd, order, token, out, .connection datum, hhost, hhd, horder, hcreate, htoken,
    hout, hdatum, by rw [← hnames]; rfl, hmint, honly, trivial⟩

theorem mint_channel_stt.mint_spec {params : mint_channel_stt.Params}
    {redeemer : MintChannelRedeemer}
    (h : mint_channel_stt.mint params redeemer policy tx = some true) :
    ∃ host hd order token out data,
      Creation .channel params.host_state_nft_policy_id policy params.spend_channel_script_hash
        tx host hd order token out data := by
  simp only [mint_channel_stt.mint, bind_eq_some, exactlyOne_eq_some, get_inline_datum_eq_some,
    Data.asHostState_eq_some, Data.asChannel_eq_some] at h
  obtain ⟨host, hhost, _, hhd, hd, rfl, out, hout, _, hdatum, datum, rfl, _, -, _, -, _, -,
    token, htoken, _, -, callback, -, h⟩ := h
  split at h
  · cases h
  have hrest : datum.token = token ∧ channel_datum.isFresh datum.state = true ∧
      auth.mint_auth_token tx.mint token = true ∧
      auth.contains_only_auth_tokens out [token] = true ∧
      ∃ order, hostRedeemer tx.redeemers host = some order ∧
        Kind.created order = some .channel := by
    cases redeemer with
    | ChanOpenInit =>
      simp only [bind_eq_some, and_accepts, pure_eq_some, Bool.and_eq_true] at h
      obtain ⟨valid, hvalid, ⟨⟨⟨⟨-, -⟩, hmint⟩, honly⟩, rfl⟩, order, horder, hcreate⟩ := h
      rw [and_accepts] at hvalid
      obtain ⟨hnames, -, hfresh, -⟩ := channel_datum.openValid_spec hvalid.1
      refine ⟨hnames, hfresh, hmint, honly, order, horder, ?_⟩
      split at hcreate
      · rfl
      · simp at hcreate
    | ChanOpenTry _ _ _ =>
      simp only [bind_eq_some, and_accepts, pure_eq_some, Bool.and_eq_true] at h
      obtain ⟨valid, hvalid, ⟨⟨⟨⟨-, -⟩, hmint⟩, honly⟩, rfl⟩, order, horder, hcreate⟩ := h
      rw [and_accepts, and_accepts] at hvalid
      obtain ⟨hnames, -, hfresh, -⟩ := channel_datum.openValid_spec hvalid.2.1
      refine ⟨hnames, hfresh, hmint, honly, order, horder, ?_⟩
      split at hcreate
      · rfl
      · simp at hcreate
  obtain ⟨hnames, hfresh, hmint, honly, order, horder, hcreate⟩ := hrest
  exact ⟨host, hd, order, token, out, .channel datum, hhost, hhd, horder, hcreate, htoken, hout,
    hdatum, by rw [← hnames]; rfl, hmint, honly, hfresh⟩

/-- A channel as its creation leaves it: fresh, with one of the two orderings, and in the first or
the second state of its handshake. -/
structure Opens (c : ChannelDatum) : Prop where
  fresh : channel_datum.isFresh c.state = true
  basic : channel.validate_basic c.state.channel = some true
  port : is_valid_port_id c.port_id = true
  begun : (c.state.channel.state = .Init ∧ c.state.channel.counterparty.channel_id = []) ∨
    (c.state.channel.state = .TryOpen ∧ c.state.channel.counterparty.channel_id ≠ [])

/-- What a channel's policy has seen of the channel, and of the connection it is opened over. -/
theorem mint_channel_stt.mint_opens {params : mint_channel_stt.Params}
    {redeemer : MintChannelRedeemer}
    (h : mint_channel_stt.mint params redeemer policy tx = some true) :
    ∃ out c connection_id connection client,
      find_script_outputs tx.outputs params.spend_channel_script_hash = [out] ∧
      out.datum = .InlineDatum (.channel c) ∧ Opens c ∧
      c.state.channel.connection_hops = [connection_id] ∧
      validate_referred_connection_and_client tx.reference_inputs c.token.name
        params.client_minting_policy_id params.connection_minting_policy_id connection_id =
        some (connection, client) := by
  simp only [mint_channel_stt.mint, bind_eq_some, exactlyOne_eq_some, get_inline_datum_eq_some,
    Data.asHostState_eq_some, Data.asChannel_eq_some] at h
  obtain ⟨host, -, _, -, hd, rfl, out, hout, _, hdatum, c, rfl, connection_id, hhops,
    ⟨connection, client⟩, hreferred, _, -, token, -, _, -, callback, -, h⟩ := h
  refine ⟨out, c, connection_id, connection, client, hout, hdatum, ?_, hhops, hreferred⟩
  split at h
  · cases h
  cases redeemer with
  | ChanOpenInit =>
    simp only [bind_eq_some, and_accepts, pure_eq_some, Bool.and_eq_true] at h
    obtain ⟨valid, hvalid, ⟨⟨⟨⟨-, -⟩, -⟩, -⟩, rfl⟩, -⟩ := h
    rw [and_accepts] at hvalid
    obtain ⟨-, hstate, hfresh, hport, hbasic⟩ := channel_datum.openValid_spec hvalid.1
    have hknown := channel_datum.openValid_known hvalid.1
    exact ⟨hfresh, hbasic, hport, .inl ⟨hstate, by simpa using hknown⟩⟩
  | ChanOpenTry _ _ _ =>
    simp only [bind_eq_some, and_accepts, pure_eq_some, Bool.and_eq_true] at h
    obtain ⟨valid, hvalid, ⟨⟨⟨⟨-, -⟩, -⟩, -⟩, rfl⟩, -⟩ := h
    rw [and_accepts, and_accepts] at hvalid
    obtain ⟨-, hstate, hfresh, hport, hbasic⟩ := channel_datum.openValid_spec hvalid.2.1
    have hknown := channel_datum.openValid_known hvalid.2.1
    exact ⟨hfresh, hbasic, hport, .inr ⟨hstate, by simpa using hknown⟩⟩

end Minting

/-! ## Updating an object -/

/-- The kind of object whose update is expected. -/
def validator_utils.ExpectedHostStateRedeemer.kind : ExpectedHostStateRedeemer → Kind
  | .ExpectUpdateClient => .client
  | .ExpectUpdateConnection => .connection
  | .ExpectUpdateChannel => .channel
  | .ExpectHandlePacket => .channel

theorem updated_of_matches {order : HostStateRedeemer} {expected : ExpectedHostStateRedeemer}
    (h : host_state_redeemer_matches order expected = true) :
    Kind.updated order = some expected.kind := by
  cases expected <;> cases order <;> first | rfl | cases h

/-- The host state is spent with the order to update an object of this kind. -/
def OrdersUpdate (k : Kind) (nft : PolicyId) (tx : Transaction) : Prop :=
  ∃ host order, host ∈ tx.inputs ∧ hasHostNft host.output nft = true ∧
    hostRedeemer tx.redeemers host = some order ∧ Kind.updated order = some k

/-- An object that is spent goes on at its address, under its token. -/
structure Update (k : Kind) (nft : PolicyId) (tx : Transaction) (spent : Output)
    (token : AuthToken) (out : Output) (data : Data) : Prop where
  ordered : OrdersUpdate k nft tx
  output : find_unique_continuation_output spent tx.outputs token = some out
  datum : out.datum = .InlineDatum data
  names : k.tokenIn data = some token

/-- What a client becomes. -/
inductive ClientStep (old new : ClientDatum) : Prop
  | header (h : Header) (height : Height) (tx_valid_from : Int)
      (unknown : has_key old.state.consensus_states height = false)
      (effect : new = { old with
        state := client_datum.expectedState old.state h height tx_valid_from })
  | misbehaviour (effect : new = client_datum.frozenDatum old)

theorem ClientStep.token_eq {old new : ClientDatum} (h : ClientStep old new) :
    new.token = old.token := by
  cases h with
  | header _ _ _ _ effect => rw [effect]
  | misbehaviour effect => rw [effect]; rfl

/-- What a connection becomes: its client and the store it is proved in stay. -/
structure ConnectionStep (old new : ConnectionDatum) : Prop where
  token_eq : new.token = old.token
  client_id : new.state.client_id = old.state.client_id
  prefixKey : new.state.counterparty.prefixKey = old.state.counterparty.prefixKey

section Spending

variable [Builtins] {nft : PolicyId} {reference : OutputReference} {tx : Transaction}

/-- What the script of a client lets a transaction make of it: the client is active, and it takes
in a header above all it knows, or it is frozen. -/
inductive ClientUpdate (tx : Transaction) (old new : ClientDatum) : Prop
  | header (h : Header) (added : Height) (valid_from valid_to : Int)
      (begins : get_tx_valid_from tx.validity_range = some valid_from)
      (ends : get_tx_valid_to tx.validity_range = some valid_to)
      (active : clientIsActive old.state valid_to = true)
      (verified : verify_header old.state.client_state
        { valid_from := valid_from * 1000000, valid_to := valid_to * 1000000 }
        old.state.consensus_states h = some true)
      (agrees : check_for_misbehaviour (.HeaderCase h) old.state.consensus_states = some false)
      (at_height : cardano_ibc.header.get_height h = some added)
      (unknown : has_key old.state.consensus_states added = false)
      (advances : height.compare added old.state.client_state.latest_height = .gt)
      (effect : new = { old with
        state := client_datum.expectedState old.state h added valid_from })
  | misbehaviour (valid_to : Int) (ends : get_tx_valid_to tx.validity_range = some valid_to)
      (active : clientIsActive old.state valid_to = true)
      (effect : new = client_datum.frozenDatum old)

theorem ClientUpdate.step {old new : ClientDatum} (h : ClientUpdate tx old new) :
    ClientStep old new := by
  cases h with
  | header h added valid_from _ _ _ _ _ _ _ unknown _ effect =>
    exact .header h added valid_from unknown effect
  | misbehaviour _ _ _ effect => exact .misbehaviour effect

/-- An accepted spend of a client: its message passes, and what is found in it decides what the
client becomes. -/
theorem spend_client.spend_judges {datum : ClientDatum} {redeemer : SpendClientRedeemer}
    (h : spend_client.spend nft (some datum) redeemer reference tx = some true) :
    ∃ msg spent out updated valid_from valid_to found, redeemer = .UpdateClient msg ∧
      find_input tx.inputs reference = some spent ∧ OrdersUpdate .client nft tx ∧
      find_unique_continuation_output spent.output tx.outputs datum.token = some out ∧
      out.datum = .InlineDatum (.client updated) ∧
      get_tx_valid_from tx.validity_range = some valid_from ∧
      get_tx_valid_to tx.validity_range = some valid_to ∧
      clientIsActive datum.state valid_to = true ∧
      verify_client_message datum.state.client_state
        { valid_from := valid_from * 1000000, valid_to := valid_to * 1000000 }
        datum.state.consensus_states msg = some true ∧
      check_for_misbehaviour msg datum.state.consensus_states = some found ∧
      (found = true → updated = client_datum.frozenDatum datum) ∧
      (found = false → ∃ header, msg = .HeaderCase header ∧
        client_datum.update_state datum updated header valid_from = some true) := by
  simp only [spend_client.spend, bind_eq_some, expect_eq_some, get_inline_datum_eq_some,
    Data.asClient_eq_some, Option.some.injEq] at h
  obtain ⟨host, hhost, order, horder, -, hmatch, spent, hspent, _, rfl, -, -, out, hout, -, -,
    _, hdatum, updated, rfl, h⟩ := h
  have hupdate : OrdersUpdate .client nft tx := by
    obtain ⟨hmem, hnft⟩ := find_host_state_input_spec hhost
    exact ⟨host, order, hmem, hnft, horder, updated_of_matches hmatch⟩
  cases redeemer with
  | Other => simp at h
  | UpdateClient msg =>
    simp only [bind_eq_some, expect_eq_some] at h
    obtain ⟨valid_to, hto, valid_from, hfrom, -, hactive, _, hverified, -, rfl, found, hfound,
      h⟩ := h
    refine ⟨msg, spent, out, updated, valid_from, valid_to, found, rfl, hspent, hupdate, hout,
      hdatum, hfrom, hto, hactive, hverified, hfound, ?_, ?_⟩
    · rintro rfl
      simp only [if_true, pure_eq_some, client_datum.update_state_on_misbehaviour,
        beq_iff_eq] at h
      exact h.symm
    · rintro rfl
      cases msg with
      | MisbehaviourCase _ => simp at h
      | HeaderCase header => exact ⟨header, rfl, by simpa using h⟩

theorem spend_client.spend_updates {datum : ClientDatum} {redeemer : SpendClientRedeemer}
    (h : spend_client.spend nft (some datum) redeemer reference tx = some true) :
    ∃ spent out updated, find_input tx.inputs reference = some spent ∧
      Update .client nft tx spent.output datum.token out (.client updated) ∧
      ClientUpdate tx datum updated := by
  obtain ⟨msg, spent, out, updated, valid_from, valid_to, found, -, hspent, hupdate, hout, hdatum,
    hfrom, hto, hactive, hverified, hfound, hfreezes, htakes⟩ := spend_client.spend_judges h
  have hstep : ClientUpdate tx datum updated := by
    cases found with
    | true => exact .misbehaviour valid_to hto hactive (hfreezes rfl)
    | false =>
      obtain ⟨header, rfl, h⟩ := htakes rfl
      simp only [client_datum.update_state, bind_eq_some, expect_eq_some, pure_eq_some,
        Bool.and_eq_true, beq_iff_eq, Bool.not_eq_eq_eq_not, Bool.not_true] at h
      obtain ⟨height, hheight, -, hunknown, hadvances, heffect⟩ := h
      exact .header header height valid_from valid_to hfrom hto hactive hverified hfound
        hheight hunknown hadvances heffect.symm
  refine ⟨spent, out, updated, hspent, ⟨hupdate, hout, hdatum, ?_⟩, hstep⟩
  rw [← hstep.step.token_eq]
  rfl

theorem spend_client.spend_spec {datum : ClientDatum} {redeemer : SpendClientRedeemer}
    (h : spend_client.spend nft (some datum) redeemer reference tx = some true) :
    ∃ spent out updated, find_input tx.inputs reference = some spent ∧
      Update .client nft tx spent.output datum.token out (.client updated) ∧
      ClientStep datum updated := by
  obtain ⟨spent, out, updated, hspent, hupdate, hstep⟩ := spend_client.spend_updates h
  exact ⟨spent, out, updated, hspent, hupdate, hstep.step⟩

theorem spend_connection.spend_spec {client_policy verify_proof : PolicyId}
    {datum : ConnectionDatum} {redeemer : SpendConnectionRedeemer}
    (h : spend_connection.spend client_policy verify_proof nft (some datum) redeemer reference
      tx = some true) :
    ∃ spent out updated, find_input tx.inputs reference = some spent ∧
      Update .connection nft tx spent.output datum.token out (.connection updated) ∧
      ConnectionStep datum updated := by
  simp only [spend_connection.spend, bind_eq_some, expect_eq_some, get_inline_datum_eq_some,
    Data.asConnection_eq_some, Option.some.injEq] at h
  obtain ⟨⟨host, host_output⟩, hhost, spent, hspent, _, rfl, -, -, out, hout, _, hdatum,
    updated, rfl, -, -, _, -, _, -, _, -, h⟩ := h
  have hupdate : OrdersUpdate .connection nft tx := by
    obtain ⟨hmem, hnft, order, horder, hmatch⟩ := require_host_state_redeemer_spec hhost
    exact ⟨host, order, hmem, hnft, horder, updated_of_matches hmatch⟩
  have hstep : ConnectionStep datum updated := by
    cases redeemer with
    | ConnOpenAck =>
      simp only [and_accepts, connection_datum.is_connection_open_ack_valid, bind_eq_some,
        pure_eq_some, Bool.and_eq_true, beq_iff_eq] at h
      obtain ⟨-, ⟨-, -, -, -, ⟨⟨⟨⟨⟨htoken, hclient⟩, -⟩, -⟩, -⟩, -⟩, hstore⟩, -⟩ := h
      exact ⟨htoken, hclient, hstore⟩
    | ConnOpenConfirm _ _ =>
      simp only [and_accepts, connection_datum.is_connection_open_confirm_valid, bind_eq_some,
        pure_eq_some, Bool.and_eq_true, beq_iff_eq] at h
      obtain ⟨-, ⟨-, -, ⟨⟨⟨⟨htoken, hclient⟩, -⟩, -⟩, -⟩, hcounterparty⟩, -⟩ := h
      exact ⟨htoken, hclient, by rw [hcounterparty]⟩
  refine ⟨spent, out, updated, hspent, ⟨hupdate, hout, hdatum, ?_⟩, hstep⟩
  rw [← hstep.token_eq]
  rfl

omit [Builtins] in
/-- A channel is spent with the marker of its operation minted for its own token. -/
theorem spend_channel.spend_spec {params : spend_channel.Params} {datum : ChannelDatum}
    {redeemer : SpendChannelRedeemer}
    (h : spend_channel.spend params (some datum) redeemer reference tx = some true) :
    OrdersUpdate .channel params.host_state_nft_policy_id tx ∧
      get_first tx.redeemers (.Mint (spend_channel.operation params redeemer).1) =
        some (.authToken datum.token) ∧
      assets.quantity_of tx.mint (spend_channel.operation params redeemer).1 [] = 1 := by
  simp only [spend_channel.spend, spend_channel.validate_operation_witness, bind_eq_some,
    expect_eq_some, Option.some.injEq, Data.asAuthToken_eq_some, require_exact_marker_mint,
    beq_iff_eq] at h
  obtain ⟨spent, -, _, rfl, ⟨host, host_output⟩, hhost, _, hredeemer, token, rfl, -, hmint, h⟩ := h
  have htoken : token = datum.token := by
    split at h
    · simp only [bind_eq_some, pure_eq_some, beq_iff_eq] at h
      obtain ⟨-, -, -, -, -, -, htoken⟩ := h
      exact htoken
    · simpa [pure_eq_some] using h
  obtain ⟨hmem, hnft, order, horder, hmatch⟩ := require_host_state_redeemer_spec hhost
  have hkind : (spend_channel.operation params redeemer).2.1.kind = .channel := by
    cases redeemer <;> rfl
  refine ⟨⟨host, order, hmem, hnft, horder, hkind ▸ updated_of_matches hmatch⟩, ?_,
    (assets.tokens_eq_single hmint).1⟩
  rw [hredeemer, htoken]

end Spending

end cardano_ibc
