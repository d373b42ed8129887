-- The scripts that mint and spend clients, connections and channels: minting_client_stt.ak,
-- spending_client.ak, minting_connection_stt.ak, spending_connection.ak,
-- minting_channel_stt.ak and spending_channel.ak.
import CardanoIbc.Ibc.ClientDatum
import CardanoIbc.Validators.Lookup

namespace cardano_ibc

open validator_utils

/-! ## What a proof is checked against -/

/-- The redeemer the proof script runs with. -/
def verifyProofRedeemer (redeemers : Redeemers) (verify_proof_policy_id : PolicyId) :
    Option VerifyProofRedeemer := do
  (← get_first redeemers (.Mint verify_proof_policy_id)).asVerifyProof

/-- A proof of one key of the counterparty's store, at a height the client knows. -/
def membershipAt (connection : ConnectionEnd) (client : ClientDatumState) (proof_height : Height)
    (proof : MerkleProof) (key value : Bytes) : Option VerifyMembershipParams := do
  let block_delay ← get_block_delay connection
  let path ← merkle.apply_prefix connection.counterparty.prefixKey
    (merkle.new_merkle_path [key])
  let consensus_state ← get_first client.consensus_states proof_height
  let processed_time ← get_first client.processed_times proof_height
  let processed_height ← get_first client.processed_heights proof_height
  return { cs := client.client_state
           cons_state := consensus_state
           height := proof_height
           processed_time
           processed_height
           delay_time_period := connection.delay_period
           delay_block_period := block_delay
           proof
           path
           value }

/-- A proof that one key of the counterparty's store is absent. -/
def nonMembershipAt (connection : ConnectionEnd) (client : ClientDatumState)
    (proof_height : Height) (proof : MerkleProof) (key : Bytes) :
    Option VerifyNonMembershipParams := do
  let m ← membershipAt connection client proof_height proof key []
  return { cs := m.cs
           cons_state := m.cons_state
           height := m.height
           processed_time := m.processed_time
           processed_height := m.processed_height
           delay_time_period := m.delay_time_period
           delay_block_period := m.delay_block_period
           proof := m.proof
           path := m.path }

/-- The transaction proves this key to have this value. -/
def provesMembership (redeemers : Redeemers) (verify_proof_policy_id : PolicyId)
    (connection : ConnectionEnd) (client : ClientDatumState) (proof_height : Height)
    (proof : MerkleProof) (key value : Bytes) : Option Bool := do
  let verify_proof_redeemer ← verifyProofRedeemer redeemers verify_proof_policy_id
  let expected ← membershipAt connection client proof_height proof key value
  return verify_proof_redeemer == .VerifyMembership expected

/-- The transaction proves this key to be absent. -/
def provesNonMembership (redeemers : Redeemers) (verify_proof_policy_id : PolicyId)
    (connection : ConnectionEnd) (client : ClientDatumState) (proof_height : Height)
    (proof : MerkleProof) (key : Bytes) : Option Bool := do
  let verify_proof_redeemer ← verifyProofRedeemer redeemers verify_proof_policy_id
  let expected ← nonMembershipAt connection client proof_height proof key
  return verify_proof_redeemer == .VerifyNonMembership expected

/-- `client_state.status(…, tx_valid_to * 1_000_000, …) == Active`. -/
def clientIsActive (client : ClientDatumState) (tx_valid_to : Int) : Bool :=
  client_state.status client.client_state (tx_valid_to * 1000000) client.consensus_states ==
    .Active

/-- The token that marks the host state. -/
def hostStateNft (host_state_nft_policy_id : PolicyId) : AuthToken :=
  { policy_id := host_state_nft_policy_id, name := host_state_token_name }

/-- The token of the object with this sequence number. -/
def objectToken [Builtins] (host_state_nft_policy_id policy : PolicyId) (kind : Bytes)
    (sequence : Int) : Option AuthToken := do
  let name ← auth.generate_token_name (hostStateNft host_state_nft_policy_id) kind
    (int_to_string sequence)
  return { policy_id := policy, name }

/-! ## The host state token and ports -/

namespace host_state_nft

/-- The token can be minted once: it takes an output that is then gone. -/
def mint (utxo_ref : OutputReference) (policy_id : PolicyId) (tx : Transaction) :
    Option Bool := do
  let _ ← find_input tx.inputs utxo_ref
  let own_minted := assets.tokens tx.mint policy_id
  expect (own_minted.length == 1)
  let quantity ← get_first own_minted host_state_token_name
  expect (quantity == 1)
  return true

end host_state_nft

namespace mint_port

variable [Builtins]

def mint (host_state_nft_policy_id : PolicyId) (redeemer : MintPortRedeemer)
    (port_minting_policy_id : PolicyId) (tx : Transaction) : Option Bool := do
  let port_token : AuthToken :=
    { policy_id := port_minting_policy_id, name := ← port_token_name redeemer.port_id }
  let host_state_input ← find_host_state_input tx.inputs host_state_nft_policy_id
  let valid_host_state_operator := match ← hostRedeemer tx.redeemers host_state_input with
    | .BindPort bound_port_id registration _ =>
      bound_port_id == redeemer.port_id &&
        registration.module_script_hash == redeemer.spend_module_script_hash &&
        registration.port_token == port_token
    | _ => false
  let module_output ←
    exactlyOne (find_script_outputs tx.outputs redeemer.spend_module_script_hash)
  let number_of_ports :=
    (assets.tokens module_output.value port_minting_policy_id).length
  return valid_host_state_operator && auth.mint_auth_token tx.mint port_token &&
    auth.contain_auth_token module_output port_token &&
    number_of_ports ≤ host_state.max_bound_ports

end mint_port

/-! ## Clients -/

namespace mint_client_stt

variable [Builtins]

def mint (spend_client_script_hash : ScriptHash) (host_state_nft_policy_id : PolicyId)
    (client_mint_policy_id : PolicyId) (tx : Transaction) : Option Bool := do
  let host_state_input ← find_host_state_input tx.inputs host_state_nft_policy_id
  let host_state_datum ← (← get_inline_datum host_state_input.output).asHostState
  let client_token ← objectToken host_state_nft_policy_id client_mint_policy_id client_prefix
    host_state_datum.state.next_client_sequence
  let client_output ← exactlyOne (find_script_outputs tx.outputs spend_client_script_hash)
  let client_output_datum ← (← get_inline_datum client_output).asClient
  let valid_output_datum ← client_datum.is_initialized_valid client_output_datum client_token
  let tx_valid_to ← get_tx_valid_to tx.validity_range
  let tx_valid_from ← get_tx_valid_from tx.validity_range
  let processed_time := tx_valid_from * 1000000
  let latest_height := client_output_datum.state.client_state.latest_height
  let datum_processed_time ← get_first client_output_datum.state.processed_times latest_height
  let datum_processed_height ←
    get_first client_output_datum.state.processed_heights latest_height
  pure (auth.mint_auth_token tx.mint client_token &&
      auth.contains_only_auth_tokens client_output [client_token] && valid_output_datum &&
      datum_processed_time == processed_time &&
      datum_processed_height == client_datum.processed_height_from_time processed_time &&
      clientIsActive client_output_datum.state tx_valid_to) <&&>
    (do match ← hostRedeemer tx.redeemers host_state_input with
      | .CreateClient .. => return true
      | _ => return false)

end mint_client_stt

namespace spend_client

variable [Builtins]

def spend (host_state_nft_policy_id : PolicyId) (datum : Option ClientDatum)
    (redeemer : SpendClientRedeemer) (spent_output_ref : OutputReference) (tx : Transaction) :
    Option Bool := do
  let host_input ← find_host_state_input tx.inputs host_state_nft_policy_id
  expect (host_state_redeemer_matches (← hostRedeemer tx.redeemers host_input)
    .ExpectUpdateClient)
  let spent_input ← find_input tx.inputs spent_output_ref
  let spent_output := spent_input.output
  let datum ← datum
  expect (auth.contain_auth_token spent_output datum.token)
  let updated_output ← find_unique_continuation_output spent_output tx.outputs datum.token
  expect (auth.contains_only_auth_tokens updated_output [datum.token])
  let updated_datum ← (← get_inline_datum updated_output).asClient
  match redeemer with
  | .UpdateClient msg =>
    let tx_valid_to ← get_tx_valid_to tx.validity_range
    let tx_valid_from ← get_tx_valid_from tx.validity_range
    expect (clientIsActive datum.state tx_valid_to)
    let tx_time : TxTime :=
      { valid_from := tx_valid_from * 1000000, valid_to := tx_valid_to * 1000000 }
    expect (← verify_client_message datum.state.client_state tx_time
      datum.state.consensus_states msg)
    let found_misbehaviour ← check_for_misbehaviour msg datum.state.consensus_states
    if found_misbehaviour then
      return client_datum.update_state_on_misbehaviour datum updated_datum
    else
      match msg with
      | .HeaderCase header => client_datum.update_state datum updated_datum header tx_valid_from
      | .MisbehaviourCase _ => none
  | .Other => return false

end spend_client

/-! ## Connections -/

/-- The connection end the counterparty holds for this one. -/
def counterpartyConnection (connection : ConnectionEnd) (connection_id : Bytes)
    (state : ConnectionState) : ConnectionEnd :=
  { client_id := connection.counterparty.client_id
    versions := connection.versions
    state
    counterparty :=
      { client_id := connection.client_id
        connection_id
        prefixKey := { key_prefix := default_merkle_prefix } }
    delay_period := connection.delay_period }

namespace mint_connection_stt

variable [Builtins]

def validate_conn_open_try_proof (client : ClientDatumState) (connection : ConnectionEnd)
    (counterparty_client_state : Bytes) (proof_init proof_client : MerkleProof)
    (proof_height : Height) (redeemers : Redeemers) (verify_proof_policy_id : PolicyId) :
    Option Bool := do
  let expected_connection_bz ← connection_pb.marshal_for_connection_end
    (counterpartyConnection connection [] .Init)
  let conn ← membershipAt connection client proof_height proof_init
    (connection_path connection.counterparty.connection_id) expected_connection_bz
  let cl ← membershipAt connection client proof_height proof_client
    (full_client_state_path connection.counterparty.client_id) counterparty_client_state
  let verify_proof_redeemer ← verifyProofRedeemer redeemers verify_proof_policy_id
  return verify_proof_redeemer == .BatchVerifyMembership [conn, cl]

def mint (client_minting_policy_id verify_proof_policy_id : PolicyId)
    (spend_connection_script_hash : ScriptHash) (host_state_nft_policy_id : PolicyId)
    (redeemer : MintConnectionRedeemer) (connection_minting_policy_id : PolicyId)
    (tx : Transaction) : Option Bool := do
  let host_state_input ← find_host_state_input tx.inputs host_state_nft_policy_id
  let host_state_datum ← (← get_inline_datum host_state_input.output).asHostState
  let connection_output ←
    exactlyOne (find_script_outputs tx.outputs spend_connection_script_hash)
  let connection_output_datum ← (← get_inline_datum connection_output).asConnection
  let client_datum ← validate_referred_client tx.reference_inputs
    connection_output_datum.token.name client_minting_policy_id
    connection_output_datum.state.client_id
  let tx_valid_to ← get_tx_valid_to tx.validity_range
  let connection_token ← objectToken host_state_nft_policy_id connection_minting_policy_id
    connection_prefix host_state_datum.state.next_connection_sequence
  let valid_connection ← match redeemer with
    | .ConnOpenInit =>
      connection_datum.is_conn_open_init_valid connection_output_datum connection_token
    | .ConnOpenTry client_state proof_init proof_client proof_height =>
      connection_datum.is_conn_open_try_valid connection_output_datum connection_token <&&>
        validate_conn_open_try_proof client_datum.state connection_output_datum.state
          client_state proof_init proof_client proof_height tx.redeemers verify_proof_policy_id
  pure (clientIsActive client_datum.state tx_valid_to &&
      auth.mint_auth_token tx.mint connection_token &&
      auth.contains_only_auth_tokens connection_output [connection_token] &&
      valid_connection) <&&>
    (do match ← hostRedeemer tx.redeemers host_state_input with
      | .CreateConnection .. => return true
      | _ => return false)

end mint_connection_stt

namespace spend_connection

/-- The height and the proof of an acknowledged connection are taken from the redeemer of the
proof script itself; everything else in it is compared. -/
def validate_conn_open_ack_proof (client : ClientDatumState) (connection_id : Bytes)
    (connection : ConnectionEnd) (redeemers : Redeemers) (verify_proof_policy_id : PolicyId) :
    Option Bool := do
  let expected_connection_bz ← connection_pb.marshal_for_connection_end
    (counterpartyConnection connection connection_id .TryOpen)
  match ← verifyProofRedeemer redeemers verify_proof_policy_id with
  | .VerifyMembership given =>
    let expected ← membershipAt connection client given.height given.proof
      (connection_path connection.counterparty.connection_id) expected_connection_bz
    return given == expected
  | _ => return false

def validate_conn_open_confirm_proof (client : ClientDatumState) (connection_id : Bytes)
    (connection : ConnectionEnd) (proof_ack : MerkleProof) (proof_height : Height)
    (redeemers : Redeemers) (verify_proof_policy_id : PolicyId) : Option Bool := do
  let expected_connection_bz ← connection_pb.marshal_for_connection_end
    (counterpartyConnection connection connection_id .Open)
  provesMembership redeemers verify_proof_policy_id connection client proof_height proof_ack
    (connection_path connection.counterparty.connection_id) expected_connection_bz

variable [Builtins]

def spend (client_minting_policy_id verify_proof_policy_id host_state_nft_policy_id : PolicyId)
    (datum : Option ConnectionDatum) (redeemer : SpendConnectionRedeemer)
    (spent_output_ref : OutputReference) (tx : Transaction) : Option Bool := do
  let _ ← require_host_state_redeemer tx.inputs tx.outputs tx.redeemers
    host_state_nft_policy_id .ExpectUpdateConnection
  let spent_input ← find_input tx.inputs spent_output_ref
  let spent_output := spent_input.output
  let datum ← datum
  expect (auth.contain_auth_token spent_output datum.token)
  let updated_output ← find_unique_continuation_output spent_output tx.outputs datum.token
  let updated_datum ← (← get_inline_datum updated_output).asConnection
  expect (auth.contains_only_auth_tokens updated_output [datum.token])
  let tx_valid_to ← get_tx_valid_to tx.validity_range
  let connection_id :=
    format_connection_identifier (← auth.extract_token_sequence datum.token.name)
  let client_datum ← validate_referred_client tx.reference_inputs datum.token.name
    client_minting_policy_id datum.state.client_id
  let connection_state_active := clientIsActive client_datum.state tx_valid_to
  match redeemer with
  | .ConnOpenAck =>
    validate_conn_open_ack_proof client_datum.state connection_id updated_datum.state
        tx.redeemers verify_proof_policy_id <&&>
      connection_datum.is_connection_open_ack_valid datum updated_datum <&&>
      pure connection_state_active
  | .ConnOpenConfirm proof_ack proof_height =>
    pure connection_state_active <&&>
      connection_datum.is_connection_open_confirm_valid datum updated_datum <&&>
      validate_conn_open_confirm_proof client_datum.state connection_id updated_datum.state
        proof_ack proof_height tx.redeemers verify_proof_policy_id

end spend_connection

/-! ## Channels -/

/-- The channel end the counterparty holds for this one. -/
def counterpartyChannel (connection : ConnectionEnd) (datum : ChannelDatum)
    (channel_id version : Bytes) (state : ChannelState) : Channel :=
  { state
    ordering := datum.state.channel.ordering
    counterparty := { port_id := datum.port_id, channel_id }
    connection_hops := [connection.counterparty.connection_id]
    version }

/-- The transaction proves the counterparty's end of the channel. -/
def provesChannel (redeemers : Redeemers) (verify_proof_policy_id : PolicyId)
    (connection : ConnectionEnd) (client : ClientDatumState) (datum : ChannelDatum)
    (channel_id version : Bytes) (state : ChannelState) (proof : MerkleProof)
    (proof_height : Height) : Option Bool := do
  let (_, channel_bz) ← channel_pb.marshal_for_channel
    (counterpartyChannel connection datum channel_id version state)
  provesMembership redeemers verify_proof_policy_id connection client proof_height proof
    (channel_path datum.state.channel.counterparty.port_id
      datum.state.channel.counterparty.channel_id) channel_bz

namespace mint_channel_stt

variable [Builtins]

/-- The policies the channel script refers to. -/
structure Params where
  client_minting_policy_id : PolicyId
  connection_minting_policy_id : PolicyId
  port_minting_policy_id : PolicyId
  verify_proof_policy_id : PolicyId
  spend_channel_script_hash : ScriptHash
  host_state_nft_policy_id : PolicyId

def mint (params : Params) (redeemer : MintChannelRedeemer)
    (channel_minting_policy_id : PolicyId) (tx : Transaction) : Option Bool := do
  let host_state_input ← find_host_state_input tx.inputs params.host_state_nft_policy_id
  let host_state_datum ← (← get_inline_datum host_state_input.output).asHostState
  let channel_id_sequence := host_state_datum.state.next_channel_sequence
  let channel_output ←
    exactlyOne (find_script_outputs tx.outputs params.spend_channel_script_hash)
  let channel_output_datum ← (← get_inline_datum channel_output).asChannel
  let connection_id ← exactlyOne channel_output_datum.state.channel.connection_hops
  let (connection_datum, client_datum) ← validate_referred_connection_and_client
    tx.reference_inputs channel_output_datum.token.name params.client_minting_policy_id
    params.connection_minting_policy_id connection_id
  let tx_valid_to ← get_tx_valid_to tx.validity_range
  let channel_token ← objectToken params.host_state_nft_policy_id channel_minting_policy_id
    channel_prefix channel_id_sequence
  let connection_version ← exactlyOne connection_datum.state.versions
  let valid_feature := version.verify_supported_feature connection_version
    (order.string channel_output_datum.state.channel.ordering)
  let channel_id := format_channel_identifier (int_to_string channel_id_sequence)
  let ibc_module_redeemer ← extract_module_redeemer tx.inputs tx.redeemers
    params.port_minting_policy_id channel_output_datum.port_id params.host_state_nft_policy_id
  match ibc_module_redeemer with
  | .Operator _ => none
  | .Callback ibc_module_callback =>
    let valid_channel ← match redeemer with
      | .ChanOpenInit =>
        channel_datum.validate_chan_open_init channel_output_datum channel_token <&&>
          pure (ibc_module_callback == .OnChanOpenInit channel_id)
      | .ChanOpenTry counterparty_version proof_init proof_height =>
        pure (connection_datum.state.state == .Open) <&&>
          channel_datum.validate_chan_open_try channel_output_datum channel_token <&&>
          provesChannel tx.redeemers params.verify_proof_policy_id connection_datum.state
            client_datum.state channel_output_datum [] counterparty_version .Init proof_init
            proof_height <&&>
          pure (ibc_module_callback == .OnChanOpenTry channel_id)
    pure (valid_feature && clientIsActive client_datum.state tx_valid_to &&
        auth.mint_auth_token tx.mint channel_token &&
        auth.contains_only_auth_tokens channel_output [channel_token] && valid_channel) <&&>
      (do match ← hostRedeemer tx.redeemers host_state_input with
        | .CreateChannel .. => return true
        | _ => return false)

end mint_channel_stt

namespace spend_channel

/-- The policies of the operations a channel can be spent with. -/
structure Params where
  chan_open_ack_policy_id : PolicyId
  chan_open_confirm_policy_id : PolicyId
  chan_close_init_policy_id : PolicyId
  chan_close_confirm_policy_id : PolicyId
  recv_packet_policy_id : PolicyId
  send_packet_policy_id : PolicyId
  timeout_packet_policy_id : PolicyId
  acknowledge_packet_policy_id : PolicyId
  prune_packet_history_policy_id : PolicyId
  host_state_nft_policy_id : PolicyId

def validate_operation_witness (tx : Transaction) (spent_output : Output)
    (channel_token : AuthToken) (host_state_nft_policy_id operation_policy_id : PolicyId)
    (expected : ExpectedHostStateRedeemer) (requires_continuation : Bool) : Option Bool := do
  let _ ← require_host_state_redeemer tx.inputs tx.outputs tx.redeemers
    host_state_nft_policy_id expected
  let marker_redeemer ← (← get_first tx.redeemers (.Mint operation_policy_id)).asAuthToken
  expect (require_exact_marker_mint tx.mint operation_policy_id [] 1)
  if requires_continuation then
    let updated_output ← find_unique_continuation_output spent_output tx.outputs channel_token
    let _ ← (← get_inline_datum updated_output).asChannel
  return marker_redeemer == channel_token

/-- The marker each operation needs, the order the host state takes it with, and whether the
channel goes on after it. -/
def operation (params : Params) :
    SpendChannelRedeemer → PolicyId × ExpectedHostStateRedeemer × Bool
  | .ChanOpenAck .. => (params.chan_open_ack_policy_id, .ExpectUpdateChannel, true)
  | .ChanOpenConfirm .. => (params.chan_open_confirm_policy_id, .ExpectUpdateChannel, true)
  | .ChanCloseInit => (params.chan_close_init_policy_id, .ExpectUpdateChannel, true)
  | .ChanCloseConfirm .. => (params.chan_close_confirm_policy_id, .ExpectUpdateChannel, false)
  | .RecvPacket .. => (params.recv_packet_policy_id, .ExpectHandlePacket, true)
  | .SendPacket .. => (params.send_packet_policy_id, .ExpectHandlePacket, true)
  | .TimeoutPacket .. => (params.timeout_packet_policy_id, .ExpectHandlePacket, true)
  | .AcknowledgePacket .. => (params.acknowledge_packet_policy_id, .ExpectHandlePacket, true)
  | .PrunePacketHistory .. => (params.prune_packet_history_policy_id, .ExpectHandlePacket, true)

def spend (params : Params) (optional_datum : Option ChannelDatum)
    (redeemer : SpendChannelRedeemer) (spent_output_ref : OutputReference) (tx : Transaction) :
    Option Bool := do
  let spent_input ← find_input tx.inputs spent_output_ref
  let datum ← optional_datum
  let (policy, expected, requires_continuation) := operation params redeemer
  validate_operation_witness tx spent_input.output datum.token params.host_state_nft_policy_id
    policy expected requires_continuation

end spend_channel

end cardano_ibc
