-- The scripts of the operations on a channel and of the proofs they rest on: the files of
-- validators/spending_channel and verifying_proof.ak. Each operation but three is a minting
-- policy whose token marks a transaction that carries the operation out.
import CardanoIbc.Validators.Objects

namespace cardano_ibc

open validator_utils

/-- The policies an operation refers to. -/
structure Policies where
  client_minting_policy_id : PolicyId
  connection_minting_policy_id : PolicyId
  port_minting_policy_id : PolicyId
  verify_proof_policy_id : PolicyId
  host_state_nft_policy_id : PolicyId

/-- What every operation reads: the channel before and after, the order it is spent with, and
the connection and client it runs over. -/
structure Operation where
  datum : ChannelDatum
  redeemer : SpendChannelRedeemer
  spent_output : Output
  updated_output : Output
  updated_datum : ChannelDatum
  tx_valid_to : Int
  channel_id : Bytes
  connection : ConnectionEnd
  client : ClientDatumState

section Scripts

variable [Builtins]

/-- The lines all operations start with. -/
def readOperation (policies : Policies) (channel_token : AuthToken) (tx : Transaction) :
    Option Operation := do
  let (datum, redeemer, spent_output) ←
    extract_channel tx.inputs tx.redeemers channel_token
  let updated_output ← find_unique_continuation_output spent_output tx.outputs datum.token
  let updated_datum ← (← get_inline_datum updated_output).asChannel
  let tx_valid_to ← get_tx_valid_to tx.validity_range
  let channel_id := format_channel_identifier (← auth.extract_token_sequence datum.token.name)
  let connection_id ← exactlyOne datum.state.channel.connection_hops
  let (connection_datum, client_datum) ← validate_referred_connection_and_client
    tx.reference_inputs datum.token.name policies.client_minting_policy_id
    policies.connection_minting_policy_id connection_id
  return { datum
           redeemer
           spent_output
           updated_output
           updated_datum
           tx_valid_to
           channel_id
           connection := connection_datum.state
           client := client_datum.state }

/-- The callback the application of the channel's port is given in this transaction. -/
def packetCallback (policies : Policies) (port_id : Bytes) (tx : Transaction) :
    Option IBCModuleCallback := do
  match ← extract_packet_module_redeemer tx.inputs tx.reference_inputs tx.outputs tx.redeemers
    policies.port_minting_policy_id port_id policies.host_state_nft_policy_id with
  | .Callback callback => some callback
  | .Operator _ => none

def handshakeCallback (policies : Policies) (port_id : Bytes) (tx : Transaction) :
    Option IBCModuleCallback := do
  match ← extract_module_redeemer tx.inputs tx.redeemers policies.port_minting_policy_id
    port_id policies.host_state_nft_policy_id with
  | .Callback callback => some callback
  | .Operator _ => none

/-! ## Packets -/

/-- The packet goes out of this channel to its counterparty. -/
def isOutbound (op : Operation) (packet : Packet) : Bool :=
  packet.source_port == op.datum.port_id && packet.source_channel == op.channel_id &&
    packet.destination_port == op.datum.state.channel.counterparty.port_id &&
    packet.destination_channel == op.datum.state.channel.counterparty.channel_id

/-- The token the script ran for is the channel's, and the channel goes on with it. -/
def keepsToken (op : Operation) (channel_token : AuthToken) : Bool :=
  channel_token == op.datum.token &&
    auth.contain_auth_token op.updated_output op.datum.token

namespace send_packet

/-- What the spending and the minting side of the script have in common. -/
def check (policies : Policies) (channel_token : AuthToken) (tx : Transaction) :
    Option Bool := do
  let op ← readOperation policies channel_token tx
  match op.redeemer with
  | .SendPacket packet =>
    expect (op.datum.state.channel.state == .Open)
    let is_valid_packet := isOutbound op packet &&
      packet.sequence == op.datum.state.next_sequence_send
    expect (clientIsActive op.client op.tx_valid_to)
    let latest_height := op.client.client_state.latest_height
    expect (height.is_zero packet.timeout_height ||
      height.compare latest_height packet.timeout_height == .lt)
    let latest_timestamp ←
      client_state.get_timestamp_at_height op.client.consensus_states latest_height
    let commitment ← cardano_ibc.packet.commit_packet packet
    match ← packetCallback policies op.datum.port_id tx with
    | .OnSendPacket callback_channel_id packet_data packet_commitment _ =>
      expect (callback_channel_id == op.channel_id && packet_data == packet.data &&
        packet_commitment == commitment)
      return keepsToken op channel_token && cardano_ibc.packet.validate_basic packet &&
        is_valid_packet &&
        (packet.timeout_timestamp == 0 || latest_timestamp < packet.timeout_timestamp) &&
        channel_datum.validate_send_packet op.datum op.updated_datum packet commitment
    | _ => none
  | _ => none

def spend (policies : Policies) (channel_token : AuthToken) (tx : Transaction) : Option Bool :=
  check policies channel_token tx

def mint (policies : Policies) (channel_token : AuthToken) (policy_id : PolicyId)
    (tx : Transaction) : Option Bool := do
  expect (require_exact_marker_mint tx.mint policy_id [] 1)
  check policies channel_token tx

end send_packet

namespace recv_packet

def validate_recv_packet_proof (connection : ConnectionEnd) (client : ClientDatumState)
    (proof_height : Height) (proof : MerkleProof) (packet : Packet) (redeemers : Redeemers)
    (verify_proof_policy_id : PolicyId) : Option Bool := do
  let commitment ← cardano_ibc.packet.commit_packet packet
  provesMembership redeemers verify_proof_policy_id connection client proof_height proof
    (packet_commitment_path packet.source_port packet.source_channel packet.sequence) commitment

def mint (policies : Policies) (channel_token : AuthToken) (policy_id : PolicyId)
    (tx : Transaction) : Option Bool := do
  expect (require_exact_marker_mint tx.mint policy_id [] 1)
  let op ← readOperation policies channel_token tx
  match op.redeemer with
  | .RecvPacket packet proof_commitment proof_height =>
    let cur_channel := op.datum.state.channel
    expect (cur_channel.state == .Open)
    expect (op.connection.state == .Open)
    expect (clientIsActive op.client op.tx_valid_to)
    let valid_packet_proof ← validate_recv_packet_proof op.connection op.client proof_height
      proof_commitment packet tx.redeemers policies.verify_proof_policy_id
    match ← packetCallback policies op.datum.port_id tx with
    | .OnRecvPacket callback_channel_id packet_data acknowledgement _ =>
      expect (callback_channel_id == op.channel_id && packet_data == packet.data)
      let acknowledgement_commitment :=
        cardano_ibc.acknowledgement.commit_acknowledgement
          (cardano_ibc.acknowledgement.marshal_json acknowledgement)
      pure (keepsToken op channel_token && cardano_ibc.packet.validate_basic packet &&
          packet.destination_port == op.datum.port_id &&
          packet.destination_channel == op.channel_id &&
          packet.source_port == cur_channel.counterparty.port_id &&
          packet.source_channel == cur_channel.counterparty.channel_id &&
          valid_packet_proof && !has_key op.datum.state.packet_receipt packet.sequence &&
          !has_key op.datum.state.packet_acknowledgement packet.sequence &&
          height.is_zero packet.timeout_height && packet.timeout_timestamp != 0 &&
          op.tx_valid_to * 1000000 < packet.timeout_timestamp) <&&>
        channel_datum.validate_recv_packet op.datum op.updated_datum packet
          acknowledgement_commitment proof_height
    | _ => none
  | _ => none

end recv_packet

namespace acknowledge_packet

def validate_acknowledge_packet_proof (connection : ConnectionEnd) (client : ClientDatumState)
    (proof_height : Height) (proof : MerkleProof) (packet : Packet) (acknowledgement : Bytes)
    (redeemers : Redeemers) (verify_proof_policy_id : PolicyId) : Option Bool :=
  provesMembership redeemers verify_proof_policy_id connection client proof_height proof
    (packet_acknowledgement_path packet.destination_port packet.destination_channel
      packet.sequence)
    (cardano_ibc.acknowledgement.commit_acknowledgement acknowledgement)

def mint (policies : Policies) (channel_token : AuthToken) (policy_id : PolicyId)
    (tx : Transaction) : Option Bool := do
  expect (require_exact_marker_mint tx.mint policy_id [] 1)
  let op ← readOperation policies channel_token tx
  match op.redeemer with
  | .AcknowledgePacket packet acknowledgement proof_acked proof_height =>
    let cur_channel := op.datum.state.channel
    let commitment ← get_first op.datum.state.packet_commitment packet.sequence
    let valid_commitment := commitment == (← cardano_ibc.packet.commit_packet packet)
    let valid_packet_proof ← validate_acknowledge_packet_proof op.connection op.client
      proof_height proof_acked packet acknowledgement tx.redeemers
      policies.verify_proof_policy_id
    match ← packetCallback policies op.datum.port_id tx with
    | .OnAcknowledgementPacket callback_channel_id packet_data callback_acknowledgement _ =>
      expect (callback_channel_id == op.channel_id && packet_data == packet.data &&
        cardano_ibc.acknowledgement.marshal_json callback_acknowledgement == acknowledgement)
      return keepsToken op channel_token && op.connection.state == .Open &&
        clientIsActive op.client op.tx_valid_to && cur_channel.state == .Open &&
        isOutbound op packet && valid_commitment &&
        channel_datum.validate_acknowledge_packet op.datum op.updated_datum packet &&
        valid_packet_proof &&
        (cur_channel.ordering != .Ordered ||
          packet.sequence == op.datum.state.next_sequence_ack)
    | _ => none
  | _ => none

end acknowledge_packet

namespace timeout_packet

def validate_timeout_unordered_packet_proof (connection : ConnectionEnd)
    (client : ClientDatumState) (proof_height : Height) (proof : MerkleProof) (packet : Packet)
    (redeemers : Redeemers) (verify_proof_policy_id : PolicyId) : Option Bool :=
  provesNonMembership redeemers verify_proof_policy_id connection client proof_height proof
    (packet_receipt_path packet.destination_port packet.destination_channel packet.sequence)

def validate_timeout_ordered_packet_proof (connection : ConnectionEnd)
    (client : ClientDatumState) (proof_height : Height) (proof : MerkleProof) (packet : Packet)
    (next_sequence_recv : Int) (redeemers : Redeemers) (verify_proof_policy_id : PolicyId) :
    Option Bool := do
  let value ← from_int_big_endian next_sequence_recv 8
  provesMembership redeemers verify_proof_policy_id connection client proof_height proof
    (next_sequence_recv_path packet.destination_port packet.destination_channel) value

/-- The transaction proves that the packet was not received, in the way of the ordering. -/
def provesUnreceived (policies : Policies) (op : Operation) (tx : Transaction) (packet : Packet)
    (proof : MerkleProof) (proof_height : Height) (next_sequence_recv : Int) : Option Bool :=
  match op.datum.state.channel.ordering with
  | .Unordered =>
    validate_timeout_unordered_packet_proof op.connection op.client proof_height proof packet
      tx.redeemers policies.verify_proof_policy_id
  | .Ordered =>
    pure (next_sequence_recv ≤ packet.sequence : Bool) <&&>
      validate_timeout_ordered_packet_proof op.connection op.client proof_height proof packet
        next_sequence_recv tx.redeemers policies.verify_proof_policy_id
  | .None => some false

def mint (policies : Policies) (channel_token : AuthToken) (policy_id : PolicyId)
    (tx : Transaction) : Option Bool := do
  expect (require_exact_marker_mint tx.mint policy_id [] 1)
  let op ← readOperation policies channel_token tx
  match op.redeemer with
  | .TimeoutPacket packet proof_unreceived proof_height next_sequence_recv =>
    expect (op.datum.state.channel.state == .Open)
    expect (clientIsActive op.client op.tx_valid_to)
    let proof_timestamp ←
      client_state.get_timestamp_at_height op.client.consensus_states proof_height
    let valid_timestamp :=
      (!height.is_zero packet.timeout_height &&
        !(height.compare proof_height packet.timeout_height == .lt)) ||
      (packet.timeout_timestamp != 0 && proof_timestamp ≥ packet.timeout_timestamp)
    let commitment ← get_first op.datum.state.packet_commitment packet.sequence
    let valid_packet_timeout ← provesUnreceived policies op tx packet proof_unreceived
      proof_height next_sequence_recv
    match ← packetCallback policies op.datum.port_id tx with
    | .OnTimeoutPacket callback_channel_id packet_data _ =>
      expect (callback_channel_id == op.channel_id && packet_data == packet.data)
      return keepsToken op channel_token && isOutbound op packet && valid_timestamp &&
        channel_datum.validate_timeout_packet op.datum op.updated_datum packet &&
        commitment == (← cardano_ibc.packet.commit_packet packet) && valid_packet_timeout
    | _ => none
  | _ => none

end timeout_packet

namespace prune_packet_history

def validate_source_commitment_absence (connection : ConnectionEnd) (client : ClientDatumState)
    (source_port source_channel : Bytes) (sequence : Int) (proof_height : Height)
    (proof : MerkleProof) (redeemers : Redeemers) (verify_proof_policy_id : PolicyId) :
    Option Bool :=
  provesNonMembership redeemers verify_proof_policy_id connection client proof_height proof
    (packet_commitment_path source_port source_channel sequence)

def mint (policies : Policies) (channel_token : AuthToken) (policy_id : PolicyId)
    (tx : Transaction) : Option Bool := do
  expect (require_exact_marker_mint tx.mint policy_id [] 1)
  let op ← readOperation policies channel_token tx
  match op.redeemer with
  | .PrunePacketHistory sequence proof_commitment_absence proof_height =>
    let state := op.datum.state
    let valid_commitment_absence ← validate_source_commitment_absence op.connection op.client
      state.channel.counterparty.port_id state.channel.counterparty.channel_id sequence
      proof_height proof_commitment_absence tx.redeemers policies.verify_proof_policy_id
    return keepsToken op channel_token && state.channel.state == .Open &&
      state.channel.ordering == .Unordered && op.connection.state == .Open &&
      clientIsActive op.client op.tx_valid_to &&
      height.compare proof_height state.minimum_receive_proof_height != .lt &&
      height.compare proof_height state.maximum_receive_proof_height != .lt &&
      valid_commitment_absence &&
      channel_datum.validate_prune_packet_history op.datum op.updated_datum sequence
        proof_height
  | _ => none

end prune_packet_history

/-! ## Handshakes -/

/-- The channel's connection is open, speaks the channel's ordering, and its client is active. -/
def handshakeReady (op : Operation) : Option Bool := do
  expect (op.connection.state == .Open)
  let connection_version ← exactlyOne op.connection.versions
  expect (clientIsActive op.client op.tx_valid_to)
  return version.verify_supported_feature connection_version
    (order.string op.datum.state.channel.ordering)

namespace chan_open_ack

def mint (policies : Policies) (channel_token : AuthToken) (policy_id : PolicyId)
    (tx : Transaction) : Option Bool := do
  expect (require_exact_marker_mint tx.mint policy_id [] 1)
  let op ← readOperation policies channel_token tx
  match op.redeemer with
  | .ChanOpenAck counterparty_version proof_try proof_height =>
    let correct_ordering ← handshakeReady op
    let valid_chan_open ← provesChannel tx.redeemers policies.verify_proof_policy_id
      op.connection op.client op.updated_datum op.channel_id counterparty_version .TryOpen
      proof_try proof_height
    expect ((← handshakeCallback policies op.datum.port_id tx) == .OnChanOpenAck op.channel_id)
    pure (auth.contain_auth_token op.spent_output op.datum.token &&
        auth.contain_auth_token op.updated_output op.datum.token && correct_ordering) <&&>
      channel_datum.validate_chan_open_ack op.datum op.updated_datum <&&> pure valid_chan_open
  | _ => none

end chan_open_ack

/-! The next three scripts have no minting side: as policies they always stop. -/

namespace chan_open_confirm

def spend (policies : Policies) (channel_token : AuthToken) (tx : Transaction) :
    Option Bool := do
  let op ← readOperation policies channel_token tx
  match op.redeemer with
  | .ChanOpenConfirm proof_ack proof_height =>
    let correct_ordering ← handshakeReady op
    let valid_chan_open ← provesChannel tx.redeemers policies.verify_proof_policy_id
      op.connection op.client op.updated_datum op.channel_id
      op.updated_datum.state.channel.version .Open proof_ack proof_height
    expect ((← handshakeCallback policies op.datum.port_id tx) ==
      .OnChanOpenConfirm op.channel_id)
    pure (keepsToken op channel_token && correct_ordering) <&&>
      channel_datum.validate_chan_open_confirm op.datum op.updated_datum <&&>
      pure valid_chan_open
  | _ => none

end chan_open_confirm

namespace chan_close_init

def spend (policies : Policies) (channel_token : AuthToken) (tx : Transaction) :
    Option Bool := do
  let op ← readOperation policies channel_token tx
  match op.redeemer with
  | .ChanCloseInit =>
    expect (op.datum.state.channel.state != .Closed)
    expect (op.connection.state == .Open)
    expect (clientIsActive op.client op.tx_valid_to)
    expect ((← handshakeCallback policies op.datum.port_id tx) == .OnChanCloseInit op.channel_id)
    return keepsToken op channel_token &&
      channel_datum.validate_chan_close_init op.datum op.updated_datum
  | _ => none

end chan_close_init

namespace chan_close_confirm

def spend (policies : Policies) (channel_token : AuthToken) (tx : Transaction) :
    Option Bool := do
  let op ← readOperation policies channel_token tx
  match op.redeemer with
  | .ChanCloseConfirm proof_init proof_height =>
    expect (op.datum.state.channel.state != .Closed)
    expect (op.connection.state == .Open)
    expect (clientIsActive op.client op.tx_valid_to)
    let valid_chan_close ← provesChannel tx.redeemers policies.verify_proof_policy_id
      op.connection op.client op.updated_datum op.channel_id
      op.updated_datum.state.channel.version .Closed proof_init proof_height
    expect ((← handshakeCallback policies op.datum.port_id tx) ==
      .OnChanCloseConfirm op.channel_id)
    return keepsToken op channel_token &&
      channel_datum.validate_chan_close_confirm op.datum op.updated_datum && valid_chan_close
  | _ => none

end chan_close_confirm

/-! ## Proofs -/

namespace verify_proof

def mint (redeemer : VerifyProofRedeemer) (policy_id : PolicyId) (tx : Transaction) :
    Option Bool := do
  let tx_valid_from ← get_tx_valid_from tx.validity_range
  let current_time := tx_valid_from * 1000000
  let current_height := client_datum.processed_height_from_time current_time
  expect (require_exact_marker_mint tx.mint policy_id [] 1)
  match redeemer with
  | .VerifyMembership params =>
    client_state.verify_membership params current_time current_height
  | .VerifyNonMembership params =>
    client_state.verify_non_membership params current_time current_height
  | .BatchVerifyMembership items =>
    pure (!items.isEmpty) <&&>
      items.allM fun i => client_state.verify_membership i current_time current_height
  | .VerifyOther => return false

end verify_proof

end Scripts

end cardano_ibc
