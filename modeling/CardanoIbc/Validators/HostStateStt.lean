-- The script of the host state: host_state_stt.ak. Each order names the object it is about by
-- an output at that object's script, and writes that object's entries into the commitment.
import CardanoIbc.Ibc.Commitment
import CardanoIbc.Ledger.Cbor
import CardanoIbc.Validators.Lookup

namespace cardano_ibc.host_state_stt

open validator_utils ibc_state_commitment

def find_host_state_output (outputs : List Output) (nft_policy : PolicyId) : Option Output :=
  exactlyOne (outputs.filter fun output => hasHostNft output nft_policy)

def find_input_with_auth_token (inputs : List Input) (token : AuthToken) : Option Input :=
  inputs.find? fun input => assets.has_nft input.output.value token.policy_id token.name

def client_id_from_token_name (token_name : AssetName) : Option Bytes := do
  return client_id_prefix_with_separator ++ (← auth.extract_token_sequence token_name)

def connection_id_from_token_name (token_name : AssetName) : Option Bytes := do
  return format_connection_identifier (← auth.extract_token_sequence token_name)

def channel_id_from_token_name (token_name : AssetName) : Option Bytes := do
  return format_channel_identifier (← auth.extract_token_sequence token_name)

def decode_host_state_datum (output : Output) : Option HostStateDatum := do
  (← get_inline_datum output).asHostState

/-! ## The objects an order is about -/

def clientOutput (outputs : List Output) (spend_client_script_hash : ScriptHash) :
    Option ClientDatum := do
  (← get_inline_datum (← exactlyOne
    (find_script_outputs outputs spend_client_script_hash))).asClient

def connectionOutput (outputs : List Output) (spend_connection_script_hash : ScriptHash) :
    Option ConnectionDatum := do
  (← get_inline_datum (← exactlyOne
    (find_script_outputs outputs spend_connection_script_hash))).asConnection

def channelOutput (outputs : List Output) (spend_channel_script_hash : ScriptHash) :
    Option ChannelDatum := do
  (← get_inline_datum (← exactlyOne
    (find_script_outputs outputs spend_channel_script_hash))).asChannel

theorem clientOutput_eq_some {outputs : List Output} {script : ScriptHash} {datum : ClientDatum} :
    clientOutput outputs script = some datum ↔
      ∃ out, find_script_outputs outputs script = [out] ∧
        out.datum = .InlineDatum (.client datum) := by
  simp only [clientOutput, bind_eq_some, exactlyOne_eq_some, get_inline_datum_eq_some,
    Data.asClient_eq_some]
  constructor
  · rintro ⟨out, hout, _, hd, rfl⟩
    exact ⟨out, hout, hd⟩
  · rintro ⟨out, hout, hd⟩
    exact ⟨out, hout, _, hd, rfl⟩

theorem connectionOutput_eq_some {outputs : List Output} {script : ScriptHash}
    {datum : ConnectionDatum} :
    connectionOutput outputs script = some datum ↔
      ∃ out, find_script_outputs outputs script = [out] ∧
        out.datum = .InlineDatum (.connection datum) := by
  simp only [connectionOutput, bind_eq_some, exactlyOne_eq_some, get_inline_datum_eq_some,
    Data.asConnection_eq_some]
  constructor
  · rintro ⟨out, hout, _, hd, rfl⟩
    exact ⟨out, hout, hd⟩
  · rintro ⟨out, hout, hd⟩
    exact ⟨out, hout, _, hd, rfl⟩

theorem channelOutput_eq_some {outputs : List Output} {script : ScriptHash}
    {datum : ChannelDatum} :
    channelOutput outputs script = some datum ↔
      ∃ out, find_script_outputs outputs script = [out] ∧
        out.datum = .InlineDatum (.channel datum) := by
  simp only [channelOutput, bind_eq_some, exactlyOne_eq_some, get_inline_datum_eq_some,
    Data.asChannel_eq_some]
  constructor
  · rintro ⟨out, hout, _, hd, rfl⟩
    exact ⟨out, hout, hd⟩
  · rintro ⟨out, hout, hd⟩
    exact ⟨out, hout, _, hd, rfl⟩

variable [Builtins]

/-! ## Clients -/

def validate_create_client_root (old_datum new_datum : HostStateDatum) (outputs : List Output)
    (spend_client_script_hash : ScriptHash)
    (client_state_siblings consensus_state_siblings : Siblings) : Option Bool := do
  let client_datum ← clientOutput outputs spend_client_script_hash
  let client_id := client_id_prefix_with_separator ++
    int_to_string old_datum.state.next_client_sequence
  let latest_height := client_datum.state.client_state.latest_height
  let consensus_state ←
    exactlyOne (pairs.get_all client_datum.state.consensus_states latest_height)
  let root_after_client_state ← apply_update old_datum.state.ibc_state_root
    (full_client_state_path client_id) [] (cbor.serialise client_datum.state.client_state)
    client_state_siblings
  let root_after_consensus_state ← apply_update root_after_client_state
    (full_client_consensus_state_path client_id (int_to_string latest_height.revision_height))
    [] (cbor.serialise consensus_state) consensus_state_siblings
  return root_after_consensus_state == new_datum.state.ibc_state_root

def apply_removed_consensus_state_updates (current_root client_id : Bytes) :
    List (Height × ConsensusState) → List Siblings → Option Bytes
  | [], [] => some current_root
  | [], _ :: _ => none
  | _ :: _, [] => none
  | (height, consensus_state) :: rest_pairs, siblings :: rest_siblings => do
    let next_root ← apply_update current_root
      (full_client_consensus_state_path client_id (int_to_string height.revision_height))
      (cbor.serialise consensus_state) [] siblings
    apply_removed_consensus_state_updates next_root client_id rest_pairs rest_siblings

def validate_update_client_root (old_datum new_datum : HostStateDatum) (inputs : List Input)
    (outputs : List Output) (spend_client_script_hash : ScriptHash)
    (client_state_siblings consensus_state_siblings : Siblings)
    (removed_consensus_state_siblings : List Siblings) : Option Bool := do
  let client_output_datum ← clientOutput outputs spend_client_script_hash
  let client_id ← client_id_from_token_name client_output_datum.token.name
  let client_input ← find_input_with_auth_token inputs client_output_datum.token
  let client_input_datum ← (← get_inline_datum client_input.output).asClient
  let root_after_client_state ← apply_update old_datum.state.ibc_state_root
    (full_client_state_path client_id) (cbor.serialise client_input_datum.state.client_state)
    (cbor.serialise client_output_datum.state.client_state) client_state_siblings
  let input_cons_states := client_input_datum.state.consensus_states
  let output_cons_states := client_output_datum.state.consensus_states
  let removed_consensus_pairs :=
    input_cons_states.filter fun pair => !has_key output_cons_states pair.1
  let root_after_removed ← apply_removed_consensus_state_updates root_after_client_state
    client_id removed_consensus_pairs removed_consensus_state_siblings
  let added_consensus_pairs :=
    output_cons_states.filter fun pair => !has_key input_cons_states pair.1
  let root_final ← match added_consensus_pairs with
    | [] => some root_after_removed
    | [(height, consensus_state)] =>
      apply_update root_after_removed
        (full_client_consensus_state_path client_id (int_to_string height.revision_height))
        [] (cbor.serialise consensus_state) consensus_state_siblings
    | _ => none
  return root_final == new_datum.state.ibc_state_root

/-! ## Connections -/

def validate_create_connection_root (old_datum new_datum : HostStateDatum)
    (outputs : List Output) (spend_connection_script_hash : ScriptHash)
    (connection_siblings : Siblings) : Option Bool := do
  let connection_datum ← connectionOutput outputs spend_connection_script_hash
  let connection_id := format_connection_identifier
    (int_to_string old_datum.state.next_connection_sequence)
  let root_after_connection ← apply_update old_datum.state.ibc_state_root
    (connection_path connection_id) [] (cbor.serialise connection_datum.state)
    connection_siblings
  return root_after_connection == new_datum.state.ibc_state_root

def validate_update_connection_root (old_datum new_datum : HostStateDatum)
    (inputs : List Input) (outputs : List Output) (spend_connection_script_hash : ScriptHash)
    (connection_siblings : Siblings) : Option Bool := do
  let connection_output_datum ← connectionOutput outputs spend_connection_script_hash
  let connection_id ← connection_id_from_token_name connection_output_datum.token.name
  let connection_input ← find_input_with_auth_token inputs connection_output_datum.token
  let connection_input_datum ← (← get_inline_datum connection_input.output).asConnection
  let root_after_connection ← apply_update old_datum.state.ibc_state_root
    (connection_path connection_id) (cbor.serialise connection_input_datum.state)
    (cbor.serialise connection_output_datum.state) connection_siblings
  return root_after_connection == new_datum.state.ibc_state_root

/-! ## Channels -/

def validate_create_channel_root (old_datum new_datum : HostStateDatum) (outputs : List Output)
    (spend_channel_script_hash : ScriptHash)
    (channel_siblings next_sequence_send_siblings next_sequence_recv_siblings
      next_sequence_ack_siblings : Siblings) : Option Bool := do
  let channel_datum ← channelOutput outputs spend_channel_script_hash
  let channel_id := format_channel_identifier
    (int_to_string old_datum.state.next_channel_sequence)
  let port_id := channel_datum.port_id
  let root_after_channel ← apply_update old_datum.state.ibc_state_root
    (channel_path port_id channel_id) [] (cbor.serialise channel_datum.state.channel)
    channel_siblings
  let root_after_next_sequence_send ← apply_update root_after_channel
    (next_sequence_send_path port_id channel_id) []
    (cbor.serialise channel_datum.state.next_sequence_send) next_sequence_send_siblings
  let root_after_next_sequence_recv ← apply_update root_after_next_sequence_send
    (next_sequence_recv_path port_id channel_id) []
    (cbor.serialise channel_datum.state.next_sequence_recv) next_sequence_recv_siblings
  let root_after_next_sequence_ack ← apply_update root_after_next_sequence_recv
    (next_sequence_ack_path port_id channel_id) []
    (cbor.serialise channel_datum.state.next_sequence_ack) next_sequence_ack_siblings
  return root_after_next_sequence_ack == new_datum.state.ibc_state_root

def validate_update_channel_root (old_datum new_datum : HostStateDatum) (inputs : List Input)
    (outputs : List Output) (spend_channel_script_hash : ScriptHash)
    (channel_siblings : Siblings) : Option Bool := do
  let channel_output_datum ← channelOutput outputs spend_channel_script_hash
  let channel_id ← channel_id_from_token_name channel_output_datum.token.name
  let port_id := channel_output_datum.port_id
  let channel_input ← find_input_with_auth_token inputs channel_output_datum.token
  let channel_input_datum ← (← get_inline_datum channel_input.output).asChannel
  expect (channel_datum.withChannel channel_input_datum channel_output_datum.state.channel ==
    channel_output_datum)
  let root_after_channel ← apply_update old_datum.state.ibc_state_root
    (channel_path port_id channel_id) (cbor.serialise channel_input_datum.state.channel)
    (cbor.serialise channel_output_datum.state.channel) channel_siblings
  return root_after_channel == new_datum.state.ibc_state_root

/-! ## Packets -/

def apply_packet_commitment_deletion (root : Bytes) (channel_datum : ChannelDatum)
    (port_id channel_id : Bytes) (sequence : Int) (siblings : Siblings) : Option Bytes := do
  let commitment ← get_first channel_datum.state.packet_commitment sequence
  apply_update root (packet_commitment_path port_id channel_id sequence)
    (cbor.serialise commitment) [] siblings

/-- The sibling lists a packet order carries, one for each key it may write. -/
structure PacketSiblings where
  channel : Siblings
  next_sequence_send : Siblings
  next_sequence_recv : Siblings
  next_sequence_ack : Siblings
  packet_commitment : Siblings
  packet_receipt : Siblings
  packet_acknowledgement : Siblings

/-- The root a packet operation leads to, from the records of the channel before and after. -/
def packetRoot (old_root : Bytes) (input output : ChannelDatum) (port_id channel_id : Bytes)
    (siblings : PacketSiblings) : SpendChannelRedeemer → Option Bytes
  | .SendPacket packet => do
    let commitment ← cardano_ibc.packet.commit_packet packet
    expect (channel_datum.validate_send_packet input output packet commitment)
    let sequence_root ← apply_update old_root (next_sequence_send_path port_id channel_id)
      (cbor.serialise input.state.next_sequence_send)
      (cbor.serialise output.state.next_sequence_send) siblings.next_sequence_send
    apply_update sequence_root (packet_commitment_path port_id channel_id packet.sequence)
      [] (cbor.serialise commitment) siblings.packet_commitment
  | .RecvPacket packet _ proof_height => do
    let acknowledgement ← get_first output.state.packet_acknowledgement packet.sequence
    expect (← channel_datum.validate_recv_packet input output packet acknowledgement
      proof_height)
    let receipt_root ←
      if input.state.channel.ordering = .Ordered then
        apply_update old_root (next_sequence_recv_path port_id channel_id)
          (cbor.serialise input.state.next_sequence_recv)
          (cbor.serialise output.state.next_sequence_recv) siblings.next_sequence_recv
      else
        apply_update old_root (packet_receipt_path port_id channel_id packet.sequence)
          [] (cbor.serialise ([] : Bytes)) siblings.packet_receipt
    apply_update receipt_root (packet_acknowledgement_path port_id channel_id packet.sequence)
      [] (cbor.serialise acknowledgement) siblings.packet_acknowledgement
  | .AcknowledgePacket packet _ _ _ => do
    expect (channel_datum.validate_acknowledge_packet input output packet)
    let sequence_root ←
      if input.state.channel.ordering = .Ordered then
        apply_update old_root (next_sequence_ack_path port_id channel_id)
          (cbor.serialise input.state.next_sequence_ack)
          (cbor.serialise output.state.next_sequence_ack) siblings.next_sequence_ack
      else some old_root
    apply_packet_commitment_deletion sequence_root input port_id channel_id packet.sequence
      siblings.packet_commitment
  | .TimeoutPacket packet _ _ _ => do
    expect (channel_datum.validate_timeout_packet input output packet)
    let channel_root ←
      if input.state.channel.ordering = .Ordered then
        apply_update old_root (channel_path port_id channel_id)
          (cbor.serialise input.state.channel) (cbor.serialise output.state.channel)
          siblings.channel
      else some old_root
    apply_packet_commitment_deletion channel_root input port_id channel_id packet.sequence
      siblings.packet_commitment
  | .PrunePacketHistory sequence _ _ => do
    let receipt ← get_first input.state.packet_receipt sequence
    let acknowledgement ← get_first input.state.packet_acknowledgement sequence
    let receipt_root ← apply_update old_root (packet_receipt_path port_id channel_id sequence)
      (cbor.serialise receipt) [] siblings.packet_receipt
    apply_update receipt_root (packet_acknowledgement_path port_id channel_id sequence)
      (cbor.serialise acknowledgement) [] siblings.packet_acknowledgement
  | _ => none

def validate_handle_packet_root (old_datum new_datum : HostStateDatum) (inputs : List Input)
    (outputs : List Output) (redeemers : Redeemers) (spend_channel_script_hash : ScriptHash)
    (siblings : PacketSiblings) : Option Bool := do
  let channel_output_datum ← channelOutput outputs spend_channel_script_hash
  let channel_id ← channel_id_from_token_name channel_output_datum.token.name
  let port_id := channel_output_datum.port_id
  let channel_input ← find_input_with_auth_token inputs channel_output_datum.token
  let channel_input_datum ← (← get_inline_datum channel_input.output).asChannel
  let channel_redeemer ←
    (← get_first redeemers (.Spend channel_input.output_reference)).asSpendChannelRedeemer
  let expected_root ← packetRoot old_datum.state.ibc_state_root channel_input_datum
    channel_output_datum port_id channel_id siblings channel_redeemer
  return expected_root == new_datum.state.ibc_state_root

/-! ## Ports -/

def validate_bind_port_root (old_datum new_datum : HostStateDatum) (port_id : Bytes)
    (registration : ModuleRegistration) (outputs : List Output) (port_siblings : Siblings) :
    Option Bool := do
  let module_output ← exactlyOne
    (find_script_outputs outputs registration.module_script_hash)
  let root_after_bind ← apply_update old_datum.state.ibc_state_root
    ( key_port_prefix ++ slash ++ port_id) [] (cbor.serialise registration) port_siblings
  return root_after_bind == new_datum.state.ibc_state_root &&
    auth.contains_only_auth_tokens module_output
      [registration.port_token, registration.module_token]

/-! ## The script -/

/-- What the script is deployed with. -/
structure Params where
  nft_policy : PolicyId
  spend_client_script_hash : ScriptHash
  spend_connection_script_hash : ScriptHash
  spend_channel_script_hash : ScriptHash

/-- The transition from one host state to the next that an order stands for. -/
def transition (params : Params) (tx : Transaction) (old_datum new_datum : HostStateDatum) :
    HostStateRedeemer → Option Bool
  | .CreateClient client_state_siblings consensus_state_siblings =>
    pure (host_state.validate_create_client old_datum new_datum) <&&>
      validate_create_client_root old_datum new_datum tx.outputs params.spend_client_script_hash
        client_state_siblings consensus_state_siblings
  | .CreateConnection connection_siblings =>
    pure (host_state.validate_create_connection old_datum new_datum) <&&>
      validate_create_connection_root old_datum new_datum tx.outputs
        params.spend_connection_script_hash connection_siblings
  | .CreateChannel channel_siblings send_siblings recv_siblings ack_siblings =>
    pure (host_state.validate_create_channel old_datum new_datum) <&&>
      validate_create_channel_root old_datum new_datum tx.outputs
        params.spend_channel_script_hash channel_siblings send_siblings recv_siblings
        ack_siblings
  | .BindPort port_id registration port_siblings =>
    pure (tx.extra_signatories.contains old_datum.deployer) <&&>
      host_state.validate_bind_port old_datum new_datum port_id registration <&&>
      validate_bind_port_root old_datum new_datum port_id registration tx.outputs port_siblings
  | .UpdateClient client_state_siblings consensus_state_siblings removed_siblings =>
    pure (host_state.validate_update_only_root old_datum new_datum) <&&>
      validate_update_client_root old_datum new_datum tx.inputs tx.outputs
        params.spend_client_script_hash client_state_siblings consensus_state_siblings
        removed_siblings
  | .UpdateConnection connection_siblings =>
    pure (host_state.validate_update_only_root old_datum new_datum) <&&>
      validate_update_connection_root old_datum new_datum tx.inputs tx.outputs
        params.spend_connection_script_hash connection_siblings
  | .UpdateChannel channel_siblings =>
    pure (host_state.validate_update_only_root old_datum new_datum) <&&>
      validate_update_channel_root old_datum new_datum tx.inputs tx.outputs
        params.spend_channel_script_hash channel_siblings
  | .HandlePacket channel_siblings send_siblings recv_siblings ack_siblings
      commitment_siblings receipt_siblings acknowledgement_siblings =>
    pure (host_state.validate_update_only_root old_datum new_datum) <&&>
      validate_handle_packet_root old_datum new_datum tx.inputs tx.outputs tx.redeemers
        params.spend_channel_script_hash
        { channel := channel_siblings
          next_sequence_send := send_siblings
          next_sequence_recv := recv_siblings
          next_sequence_ack := ack_siblings
          packet_commitment := commitment_siblings
          packet_receipt := receipt_siblings
          packet_acknowledgement := acknowledgement_siblings }
  | .EnterShutdown grace_period_end =>
    some (tx.extra_signatories.contains old_datum.deployer &&
      host_state.validate_enter_shutdown old_datum new_datum grace_period_end)
  | .Heartbeat =>
    some (tx.extra_signatories.contains old_datum.deployer &&
      host_state.validate_heartbeat old_datum new_datum)
  | .FinalizeShutdown => none

def spend (params : Params) (redeemer : HostStateRedeemer) (tx : Transaction) :
    Option Bool := do
  let host_input ← find_host_state_input tx.inputs params.nft_policy
  let old_datum ← decode_host_state_datum host_input.output
  expect (old_datum.nft_policy == params.nft_policy)
  match redeemer with
  | .FinalizeShutdown =>
    pure (tx.extra_signatories.contains old_datum.deployer) <&&>
      (do return host_state.validate_finalize_shutdown old_datum
            (← get_tx_valid_from tx.validity_range)) <&&>
      pure (!tx.outputs.any fun output => output.address == host_input.output.address &&
        hasHostNft output params.nft_policy)
  | _ =>
    let host_output ← find_host_state_output tx.outputs params.nft_policy
    let new_datum ← decode_host_state_datum host_output
    expect (host_output.address == host_input.output.address)
    expect (new_datum.nft_policy == params.nft_policy)
    transition params tx old_datum new_datum redeemer

omit [Builtins] in
theorem decode_host_state_datum_eq_some {output : Output} {datum : HostStateDatum} :
    decode_host_state_datum output = some datum ↔
      output.datum = .InlineDatum (.hostState datum) := by
  simp only [decode_host_state_datum, bind_eq_some, get_inline_datum_eq_some,
    Data.asHostState_eq_some]
  constructor
  · rintro ⟨_, h, rfl⟩
    exact h
  · intro h
    exact ⟨_, h, rfl⟩

/-- An order other than the last one takes the host state from its one input to its one output. -/
theorem spend_spec {params : Params} {redeemer : HostStateRedeemer} {tx : Transaction}
    (h : spend params redeemer tx = some true) (hlast : redeemer ≠ .FinalizeShutdown) :
    ∃ host_input old_datum host_output new_datum,
      find_host_state_input tx.inputs params.nft_policy = some host_input ∧
      host_input.output.datum = .InlineDatum (.hostState old_datum) ∧
      tx.outputs.filter (fun o => hasHostNft o params.nft_policy) = [host_output] ∧
      host_output.datum = .InlineDatum (.hostState new_datum) ∧
      host_output.address = host_input.output.address ∧
      transition params tx old_datum new_datum redeemer = some true := by
  have hspend : ∃ host_input, find_host_state_input tx.inputs params.nft_policy =
      some host_input ∧ ∃ old_datum, decode_host_state_datum host_input.output =
      some old_datum ∧ ∃ host_output, find_host_state_output tx.outputs params.nft_policy =
      some host_output ∧ ∃ new_datum, decode_host_state_datum host_output = some new_datum ∧
      host_output.address = host_input.output.address ∧
      transition params tx old_datum new_datum redeemer = some true := by
    cases redeemer <;> first | exact absurd rfl hlast | skip
    all_goals
      simp only [spend, bind_eq_some, expect_eq_some, beq_iff_eq] at h
      obtain ⟨hi, hfind, old, hold, -, -, ho, hout, new, hnew, -, haddr, -, -, ht⟩ := h
      exact ⟨hi, hfind, old, hold, ho, hout, new, hnew, haddr, ht⟩
  obtain ⟨hi, hfind, old, hold, ho, hout, new, hnew, haddr, ht⟩ := hspend
  exact ⟨hi, old, ho, new, hfind, decode_host_state_datum_eq_some.mp hold,
    exactlyOne_eq_some.mp hout, decode_host_state_datum_eq_some.mp hnew, haddr, ht⟩

/-- The script the objects of a kind are looked for at. -/
def Params.script (params : Params) : Kind → ScriptHash
  | .client => params.spend_client_script_hash
  | .connection => params.spend_connection_script_hash
  | .channel => params.spend_channel_script_hash

/-- The token named by the one output at the script of a kind of object. -/
def selected (params : Params) (k : Kind) (outputs : List Output) : Option AuthToken := do
  k.tokenIn (← get_inline_datum (← exactlyOne (find_script_outputs outputs (params.script k))))

omit [Builtins] in
theorem selected_eq_some {params : Params} {k : Kind} {outputs : List Output} {token : AuthToken} :
    selected params k outputs = some token ↔
      ∃ out data, find_script_outputs outputs (params.script k) = [out] ∧
        out.datum = .InlineDatum data ∧ k.tokenIn data = some token := by
  simp only [selected, bind_eq_some, exactlyOne_eq_some, get_inline_datum_eq_some]
  constructor
  · rintro ⟨out, hout, data, hd, ht⟩
    exact ⟨out, data, hout, hd, ht⟩
  · rintro ⟨out, data, hout, hd, ht⟩
    exact ⟨out, hout, data, hd, ht⟩

/-- An order to update finds the input it updates by the token its output names. -/
theorem transition_updates {params : Params} {tx : Transaction} {old new : HostStateDatum}
    {order : HostStateRedeemer} (h : transition params tx old new order = some true) {k : Kind}
    (hk : Kind.updated order = some k) :
    ∃ token input, selected params k tx.outputs = some token ∧
      find_input_with_auth_token tx.inputs token = some input := by
  cases order <;> simp only [Kind.updated, reduceCtorEq, Option.some.injEq] at hk <;>
    subst hk <;> simp only [transition, and_accepts] at h
  case UpdateClient =>
    simp only [validate_update_client_root, bind_eq_some, clientOutput_eq_some] at h
    obtain ⟨-, datum, ⟨out, hout, hd⟩, -, -, input, hinput, -⟩ := h
    exact ⟨datum.token, input, selected_eq_some.mpr ⟨out, _, hout, hd, rfl⟩, hinput⟩
  case UpdateConnection =>
    simp only [validate_update_connection_root, bind_eq_some, connectionOutput_eq_some] at h
    obtain ⟨-, datum, ⟨out, hout, hd⟩, -, -, input, hinput, -⟩ := h
    exact ⟨datum.token, input, selected_eq_some.mpr ⟨out, _, hout, hd, rfl⟩, hinput⟩
  case UpdateChannel =>
    simp only [validate_update_channel_root, bind_eq_some, channelOutput_eq_some] at h
    obtain ⟨-, datum, ⟨out, hout, hd⟩, -, -, input, hinput, -⟩ := h
    exact ⟨datum.token, input, selected_eq_some.mpr ⟨out, _, hout, hd, rfl⟩, hinput⟩
  case HandlePacket =>
    simp only [validate_handle_packet_root, bind_eq_some, channelOutput_eq_some] at h
    obtain ⟨-, datum, ⟨out, hout, hd⟩, -, -, input, hinput, -⟩ := h
    exact ⟨datum.token, input, selected_eq_some.mpr ⟨out, _, hout, hd, rfl⟩, hinput⟩

/-- How far an order moves the sequence of a kind of object on. -/
def advance (order : HostStateRedeemer) (k : Kind) : Int :=
  if Kind.created order = some k then 1 else 0

/-- An order moves on the sequence of the kind of object it creates, and no other. -/
theorem transition_next {params : Params} {tx : Transaction} {old new : HostStateDatum}
    {order : HostStateRedeemer} (h : transition params tx old new order = some true) (k : Kind) :
    k.next new.state = k.next old.state + advance order k := by
  have hmoves : ∃ a b c, host_state.moves old new a b c = true ∧ advance order k =
      match k with
      | .client => a
      | .connection => b
      | .channel => c := by
    cases order <;>
      simp only [transition, and_accepts, pure_eq_some, Option.some.injEq, Bool.and_eq_true,
        host_state.validate_create_client, host_state.validate_create_connection,
        host_state.validate_create_channel, host_state.createValid,
        host_state.validate_update_only_root, host_state.validate_bind_port, bind_eq_some,
        host_state.validate_enter_shutdown, host_state.validate_heartbeat,
        reduceCtorEq] at h
    case CreateClient => exact ⟨1, 0, 0, h.1.1.1.1, by cases k <;> rfl⟩
    case CreateConnection => exact ⟨0, 1, 0, h.1.1.1.1, by cases k <;> rfl⟩
    case CreateChannel => exact ⟨0, 0, 1, h.1.1.1.1, by cases k <;> rfl⟩
    case BindPort =>
      obtain ⟨-, ⟨-, -, ⟨⟨⟨-, hmoves⟩, -⟩, -⟩, -⟩, -⟩ := h
      exact ⟨0, 0, 0, hmoves, by cases k <;> rfl⟩
    case EnterShutdown => exact ⟨0, 0, 0, h.2.1.1.1.1.1, by cases k <;> rfl⟩
    case Heartbeat => exact ⟨0, 0, 0, h.2.1.1.1.1.1, by cases k <;> rfl⟩
    all_goals exact ⟨0, 0, 0, h.1.1.1, by cases k <;> rfl⟩
  obtain ⟨a, b, c, hmoves, hadvance⟩ := hmoves
  rw [hadvance]
  exact host_state.moves_next hmoves k

end cardano_ibc.host_state_stt
