-- The transfer application: voucher_flow.ak, channel_callback.ak, ibc_module.ak, refund.ak,
-- spending_transfer_module.ak and minting_transfer_escrow_shard.ak.
import CardanoIbc.Ibc.Commitment
import CardanoIbc.Transfer.Escrow
import CardanoIbc.Validators.Lookup

namespace cardano_ibc

open validator_utils

/-! ## Vouchers -/

namespace transfer_voucher_flow

def mintVoucherRedeemer (redeemers : Redeemers) (voucher_minting_policy_id : PolicyId) :
    Option MintVoucherRedeemer := do
  (← get_first redeemers (.Mint voucher_minting_policy_id)).asMintVoucher

def require_no_voucher_mint (redeemers : Redeemers) (voucher_minting_policy_id : PolicyId) :
    Bool :=
  get_first redeemers (.Mint voucher_minting_policy_id) == none

def validate_mint_voucher_packet (redeemers : Redeemers) (voucher_minting_policy_id : PolicyId)
    (packet : Packet) : Option Bool := do
  match ← mintVoucherRedeemer redeemers voucher_minting_policy_id with
  | .MintVoucher packet_source_port packet_source_channel packet_dest_port packet_dest_channel _ =>
    return packet_source_port == packet.source_port &&
      packet_source_channel == packet.source_channel &&
      packet_dest_port == packet.destination_port &&
      packet_dest_channel == packet.destination_channel
  | _ => none

def validate_burn_voucher_packet (redeemers : Redeemers) (voucher_minting_policy_id : PolicyId)
    (packet : Packet) : Option Bool := do
  match ← mintVoucherRedeemer redeemers voucher_minting_policy_id with
  | .BurnVoucher packet_source_port packet_source_channel _ =>
    return packet_source_port == packet.source_port &&
      packet_source_channel == packet.source_channel
  | _ => none

end transfer_voucher_flow

/-! ## The channel a callback is about -/

namespace transfer_channel_callback

variable [Builtins]

def channel_auth_token (channel_minting_policy_id : PolicyId) (host_state_nft : AuthToken)
    (channel_id : Bytes) : Option AuthToken := do
  let name ← auth.generate_token_name host_state_nft channel_prefix
    (parse_channel_id_sequence channel_id)
  return { policy_id := channel_minting_policy_id, name }

omit [Builtins] in
/-- The channel the transaction leaves behind, if it is bound to this port. -/
def channelOutput (outputs : List Output) (channel_token : AuthToken) (port_id : Bytes) :
    Option Channel := do
  let channel_output ← exactlyOne (outputs.filter fun output =>
    auth.contain_auth_token output channel_token)
  let channel_datum ← (← get_inline_datum channel_output).asChannel
  expect (channel_datum.port_id == port_id)
  return channel_datum.state.channel

omit [Builtins] in
def mintChannelRedeemer (redeemers : Redeemers) (channel_minting_policy_id : PolicyId) :
    Option MintChannelRedeemer := do
  (← get_first redeemers (.Mint channel_minting_policy_id)).asMintChannelRedeemer

def validate_channel_open_init (redeemers : Redeemers) (channel_minting_policy_id : PolicyId)
    (host_state_nft : AuthToken) (outputs : List Output) (port_id channel_id : Bytes) :
    Option Channel := do
  match ← mintChannelRedeemer redeemers channel_minting_policy_id with
  | .ChanOpenInit =>
    expect (is_valid_channel_id channel_id)
    let channel_token ← channel_auth_token channel_minting_policy_id host_state_nft channel_id
    channelOutput outputs channel_token port_id
  | .ChanOpenTry .. => none

def validate_channel_open_try (redeemers : Redeemers) (channel_minting_policy_id : PolicyId)
    (host_state_nft : AuthToken) (outputs : List Output) (port_id channel_id : Bytes) :
    Option (Channel × Bytes) := do
  match ← mintChannelRedeemer redeemers channel_minting_policy_id with
  | .ChanOpenTry counterparty_version _ _ =>
    expect (is_valid_channel_id channel_id)
    let channel_token ← channel_auth_token channel_minting_policy_id host_state_nft channel_id
    return (← channelOutput outputs channel_token port_id, counterparty_version)
  | .ChanOpenInit => none

/-- The order the channel is spent with. -/
def extract_channel_redeemer (inputs : List Input) (redeemers : Redeemers)
    (channel_minting_policy_id : PolicyId) (host_state_nft : AuthToken) (channel_id : Bytes) :
    Option SpendChannelRedeemer := do
  expect (is_valid_channel_id channel_id)
  let channel_token ← channel_auth_token channel_minting_policy_id host_state_nft channel_id
  let channel_input ← find_authenticated_input inputs channel_token
  (← get_first redeemers (.Spend channel_input.output_reference)).asSpendChannelRedeemer

def validate_chan_open_ack (inputs : List Input) (redeemers : Redeemers)
    (channel_minting_policy_id : PolicyId) (host_state_nft : AuthToken) (outputs : List Output)
    (port_id channel_id : Bytes) : Option (Channel × Bytes) := do
  match ← extract_channel_redeemer inputs redeemers channel_minting_policy_id host_state_nft
      channel_id with
  | .ChanOpenAck counterparty_version _ _ =>
    let channel_token ← channel_auth_token channel_minting_policy_id host_state_nft channel_id
    return (← channelOutput outputs channel_token port_id, counterparty_version)
  | _ => none

def validate_chan_open_confirm (inputs : List Input) (redeemers : Redeemers)
    (channel_minting_policy_id : PolicyId) (host_state_nft : AuthToken) (outputs : List Output)
    (port_id channel_id : Bytes) : Option Channel := do
  match ← extract_channel_redeemer inputs redeemers channel_minting_policy_id host_state_nft
      channel_id with
  | .ChanOpenConfirm .. =>
    let channel_token ← channel_auth_token channel_minting_policy_id host_state_nft channel_id
    channelOutput outputs channel_token port_id
  | _ => none

end transfer_channel_callback

namespace transfer_ibc_module

def version : Bytes := utf8 "ics20-1"

def validate_on_chan_open_init (order : Order) (channel_version : Bytes) : Bool :=
  order == .Unordered && channel_version == version

def validate_on_chan_open_try (order : Order) (channel_version counterparty_version : Bytes) :
    Bool :=
  order == .Unordered && counterparty_version == version && channel_version == version

def validate_on_chan_open_ack (counterparty_version : Bytes) : Bool :=
  counterparty_version == version

def validate_on_chan_recv_packet (acknowledgement : Acknowledgement) : Bool :=
  acknowledgement == .AcknowledgementResult (utf8 "AQ==")

end transfer_ibc_module

/-! ## Refunds -/

namespace transfer_refund

/-- How much of a token the outputs at an address hold. -/
def heldAt (outputs : List Output) (address : Address) (policy_id : PolicyId)
    (name : AssetName) : Int :=
  outputs.foldl (fun acc output =>
    if output.address = address then acc + assets.quantity_of output.value policy_id name
    else acc) 0

def from_verification_key (hash : Bytes) : Address :=
  { payment_credential := .VerificationKey hash, stake_credential := none }

variable [Builtins]

/-- A packet that locked native tokens gives them back to its sender. One that burned vouchers
has them minted again. -/
def validate_refund_packet_token (voucher_minting_policy_id : PolicyId) (inputs : List Input)
    (outputs : List Output) (redeemers : Redeemers) (spent_input : Input)
    (spend : transfer_escrow.TransferModuleSpend) (shard_policy_id : PolicyId) (mint : Value)
    (data : FungibleTokenPacketData) (packet : Packet) : Option Bool := do
  if transfer_coin.sender_chain_is_source packet.source_port packet.source_channel data.denom then
    expect (transfer_voucher_flow.require_no_voucher_mint redeemers voucher_minting_policy_id)
    let escrowed_token_unit ← string.hex_string_to_bytes data.denom
    let (policy_id, token_name) ← extract_token_unit escrowed_token_unit
    let transfer_amount ← int.from_utf8 data.amount
    let expected_escrow_value_difference :=
      assets.negate (assets.from_asset policy_id token_name transfer_amount)
    let correct_transfer_amount ← transfer_escrow.validate_module_escrow_transition spent_input
      spend inputs outputs (transfer_escrow.transfer_escrow_datum packet.source_channel data.denom)
      shard_policy_id mint (0 - transfer_amount) expected_escrow_value_difference
      escrowed_token_unit
    let sender_public_key_hash ← string.hex_string_to_bytes data.sender
    let receiver_address := from_verification_key sender_public_key_hash
    let receiver_delta := heldAt outputs receiver_address policy_id token_name -
      heldAt (inputs.map Input.output) receiver_address policy_id token_name
    let correct_receiver_amount : Bool :=
      if escrowed_token_unit = utf8 "lovelace" then receiver_delta ≥ transfer_amount
      else receiver_delta == transfer_amount
    return correct_transfer_amount && correct_receiver_amount
  else
    match ← transfer_voucher_flow.mintVoucherRedeemer redeemers voucher_minting_policy_id with
    | .RefundVoucher packet_source_port packet_source_channel _ _ =>
      let updated_output ← transfer_escrow.expect_module_state spend
      return value_delta.validate_output_amount spent_input updated_output assets.zero &&
        packet_source_port == packet.source_port &&
        packet_source_channel == packet.source_channel
    | _ => none

end transfer_refund

/-! ## The module's script -/

def validator_utils.require_active_host_state (input : Input) : Option Unit := do
  let host_state_datum ← (← get_inline_datum input.output).asHostState
  expect (host_state.is_active host_state_datum.shutdown)

namespace spend_transfer_module

structure Params where
  port_token : AuthToken
  module_token : AuthToken
  port_id : Bytes
  transfer_escrow_shard_policy_id : PolicyId
  channel_minting_policy_id : PolicyId
  voucher_minting_policy_id : PolicyId
  host_state_nft_policy_id : PolicyId

namespace Params

def host_state_nft (p : Params) : AuthToken :=
  { policy_id := p.host_state_nft_policy_id, name := host_state_token_name }

end Params

def decode_transfer_packet_data : IBCModulePacketData → Option FungibleTokenPacketData
  | .ModuleDataV1 (.packetData data) => some data
  | _ => none

def decode_transfer_operator : IBCModuleOperator → Option TransferModuleRedeemer
  | .ModuleOperatorV1 (.transferOrder order) => some order
  | _ => none

variable [Builtins]

def channelRedeemer (p : Params) (transaction : Transaction) (channel_id : Bytes) :
    Option SpendChannelRedeemer :=
  transfer_channel_callback.extract_channel_redeemer transaction.inputs transaction.redeemers
    p.channel_minting_policy_id p.host_state_nft channel_id

/-- The module's root is spent and comes back with the same tokens and the same datum. -/
def keepsModule (spent_input : Input) (spend : transfer_escrow.TransferModuleSpend) :
    Option Bool := do
  let updated_output ← transfer_escrow.expect_module_state spend
  return value_delta.validate_output_amount spent_input updated_output assets.zero

def sentPacket : SpendChannelRedeemer → Option Packet
  | .SendPacket packet => some packet
  | _ => none

def receivedPacket : SpendChannelRedeemer → Option Packet
  | .RecvPacket packet _ _ => some packet
  | _ => none

def timedOutPacket : SpendChannelRedeemer → Option Packet
  | .TimeoutPacket packet _ _ _ => some packet
  | _ => none

def acknowledgedPacket : SpendChannelRedeemer → Option (Packet × Bytes)
  | .AcknowledgePacket packet acknowledgement _ _ => some (packet, acknowledgement)
  | _ => none

def module_operator (p : Params) (op : TransferModuleRedeemer)
    (spent_output_ref : OutputReference) (transaction : Transaction)
    (spend : transfer_escrow.TransferModuleSpend) (host_state_input : Input) : Option Bool := do
  let spent_input ← find_input transaction.inputs spent_output_ref
  match op with
  | .Transfer channel_id data =>
    expect (fungible_token_packet_data.validate_basic data)
    let packet ← sentPacket (← channelRedeemer p transaction channel_id)
    expect (fungible_token_packet_data.get_bytes data == packet.data)
    if transfer_coin.sender_chain_is_source packet.source_port packet.source_channel
        data.denom then
      -- no new escrow once the bridge shuts down
      require_active_host_state host_state_input
      expect (transfer_voucher_flow.require_no_voucher_mint transaction.redeemers
        p.voucher_minting_policy_id)
      let escrowed_token_unit ← string.hex_string_to_bytes data.denom
      let (policy_id, token_name) ← extract_token_unit escrowed_token_unit
      let transfer_amount ← int.from_utf8 data.amount
      transfer_escrow.validate_module_escrow_transition spent_input spend transaction.inputs
        transaction.outputs (transfer_escrow.transfer_escrow_datum channel_id data.denom)
        p.transfer_escrow_shard_policy_id transaction.mint transfer_amount
        (assets.from_asset policy_id token_name transfer_amount) escrowed_token_unit
    else
      keepsModule spent_input spend <&&>
        transfer_voucher_flow.validate_burn_voucher_packet transaction.redeemers
          p.voucher_minting_policy_id packet
  | .OtherTransferOp => return false

def exact_send_callback_matches (p : Params) (transaction : Transaction)
    (channel_id packet_data packet_commitment : Bytes) : Option Bool := do
  let packet ← sentPacket (← channelRedeemer p transaction channel_id)
  pure (packet_data == packet.data) <&&>
    return packet_commitment == (← cardano_ibc.packet.commit_packet packet)

/-- Native tokens come back: the shard gives them up and an output at the receiver has them. -/
def returnsNative (p : Params) (transaction : Transaction) (spent_input : Input)
    (spend : transfer_escrow.TransferModuleSpend) (channel_id : Bytes)
    (data : FungibleTokenPacketData) (packet : Packet) : Option Bool := do
  expect (transfer_voucher_flow.require_no_voucher_mint transaction.redeemers
    p.voucher_minting_policy_id)
  let unprefixed_denom := data.denom.drop
    ( transfer_coin.get_denom_prefix packet.source_port packet.source_channel).length
  let escrowed_token_unit ← string.hex_string_to_bytes unprefixed_denom
  let (policy_id, token_name) ← extract_token_unit escrowed_token_unit
  let transfer_amount ← int.from_utf8 data.amount
  let valid_transfer_amount ← transfer_escrow.validate_module_escrow_transition spent_input spend
    transaction.inputs transaction.outputs
    (transfer_escrow.transfer_escrow_datum channel_id unprefixed_denom)
    p.transfer_escrow_shard_policy_id transaction.mint (0 - transfer_amount)
    (assets.negate (assets.from_asset policy_id token_name transfer_amount)) escrowed_token_unit
  let receiver_public_key_hash ← string.hex_string_to_bytes data.receiver
  let receiver_address := transfer_refund.from_verification_key receiver_public_key_hash
  expect (is_valid_channel_id channel_id)
  let channel_sequence := parse_channel_id_sequence channel_id
  let channel_token ← transfer_channel_callback.channel_auth_token p.channel_minting_policy_id
    p.host_state_nft channel_id
  let _ ← find_authenticated_input transaction.inputs channel_token
  let channel_output ← transaction.outputs.find? fun output =>
    auth.contain_auth_token output channel_token
  let updated_channel_datum ← (← get_inline_datum channel_output).asChannel
  let payout_output ← transaction.outputs.find? fun output => output.address == receiver_address
  let derived_channel_sequence ← auth.extract_token_sequence updated_channel_datum.token.name
  return valid_transfer_amount &&
    format_channel_identifier channel_sequence == channel_id &&
    derived_channel_sequence == channel_sequence &&
    assets.quantity_of payout_output.value policy_id token_name ≥ transfer_amount

def module_callback (p : Params) (cb : IBCModuleCallback) (spent_output_ref : OutputReference)
    (transaction : Transaction) (spend : transfer_escrow.TransferModuleSpend)
    (host_state_input : Input) : Option Bool := do
  let spent_input ← find_input transaction.inputs spent_output_ref
  match cb with
  | .OnSendPacket channel_id packet_data packet_commitment data =>
    let transfer_data ← decode_transfer_packet_data data
    expect (← exact_send_callback_matches p transaction channel_id packet_data packet_commitment)
    module_operator p (.Transfer channel_id transfer_data) spent_output_ref transaction spend
      host_state_input
  | .OnChanOpenInit channel_id =>
    let _ ← transfer_escrow.expect_module_state spend
    let channel ← transfer_channel_callback.validate_channel_open_init transaction.redeemers
      p.channel_minting_policy_id p.host_state_nft transaction.outputs p.port_id channel_id
    keepsModule spent_input spend <&&>
      pure (transfer_ibc_module.validate_on_chan_open_init channel.ordering channel.version)
  | .OnChanOpenTry channel_id =>
    let _ ← transfer_escrow.expect_module_state spend
    let (channel, counterparty_version) ← transfer_channel_callback.validate_channel_open_try
      transaction.redeemers p.channel_minting_policy_id p.host_state_nft transaction.outputs
      p.port_id channel_id
    keepsModule spent_input spend <&&>
      pure (transfer_ibc_module.validate_on_chan_open_try channel.ordering channel.version
        counterparty_version)
  | .OnChanOpenAck channel_id =>
    let _ ← transfer_escrow.expect_module_state spend
    let (_, counterparty_version) ← transfer_channel_callback.validate_chan_open_ack
      transaction.inputs transaction.redeemers p.channel_minting_policy_id p.host_state_nft
      transaction.outputs p.port_id channel_id
    keepsModule spent_input spend <&&>
      pure (transfer_ibc_module.validate_on_chan_open_ack counterparty_version)
  | .OnChanOpenConfirm channel_id =>
    let _ ← transfer_escrow.expect_module_state spend
    let _ ← transfer_channel_callback.validate_chan_open_confirm transaction.inputs
      transaction.redeemers p.channel_minting_policy_id p.host_state_nft transaction.outputs
      p.port_id channel_id
    keepsModule spent_input spend
  | .OnChanCloseInit _ => return false
  | .OnChanCloseConfirm _ => return false
  | .OnRecvPacket channel_id packet_data acknowledgement data =>
    expect (transfer_ibc_module.validate_on_chan_recv_packet acknowledgement)
    let data ← decode_transfer_packet_data data
    expect (fungible_token_packet_data.validate_basic data)
    let packet ← receivedPacket (← channelRedeemer p transaction channel_id)
    expect (packet_data == packet.data)
    expect (fungible_token_packet_data.get_bytes data == packet.data)
    if transfer_coin.receiver_chain_is_source packet.source_port packet.source_channel
        data.denom then
      returnsNative p transaction spent_input spend channel_id data packet
    else
      keepsModule spent_input spend <&&>
        transfer_voucher_flow.validate_mint_voucher_packet transaction.redeemers
          p.voucher_minting_policy_id packet
  | .OnTimeoutPacket channel_id packet_data data =>
    let packet ← timedOutPacket (← channelRedeemer p transaction channel_id)
    expect (packet_data == packet.data)
    let data ← decode_transfer_packet_data data
    transfer_refund.validate_refund_packet_token p.voucher_minting_policy_id transaction.inputs
        transaction.outputs transaction.redeemers spent_input spend
        p.transfer_escrow_shard_policy_id transaction.mint data packet <&&>
      pure (fungible_token_packet_data.get_bytes data == packet.data)
  | .OnAcknowledgementPacket channel_id packet_data acknowledgement data =>
    let (packet, channel_ack) ← acknowledgedPacket (← channelRedeemer p transaction channel_id)
    expect (packet_data == packet.data)
    let tf_data ← decode_transfer_packet_data data
    match acknowledgement with
    | .AcknowledgementError _ =>
      pure (fungible_token_packet_data.get_bytes tf_data == packet.data &&
          cardano_ibc.acknowledgement.marshal_json acknowledgement == channel_ack) <&&>
        transfer_refund.validate_refund_packet_token p.voucher_minting_policy_id
          transaction.inputs transaction.outputs transaction.redeemers spent_input spend
          p.transfer_escrow_shard_policy_id transaction.mint tf_data packet
    | .AcknowledgementResult _ =>
      keepsModule spent_input spend <&&>
        pure (fungible_token_packet_data.get_bytes tf_data == packet.data &&
          cardano_ibc.acknowledgement.marshal_json acknowledgement == channel_ack)

def spend (p : Params) (redeemer : IBCModuleRedeemer) (spent_output_ref : OutputReference)
    (transaction : Transaction) : Option Bool := do
  let (host_state_input, _) ← require_host_state_thread transaction.inputs transaction.outputs
    p.host_state_nft_policy_id
  let _ ← get_inline_datum host_state_input.output
  let spent_input ← find_input transaction.inputs spent_output_ref
  let spent ← transfer_escrow.classify_transfer_module_spend spent_input.output
    transaction.outputs p.port_token p.module_token p.transfer_escrow_shard_policy_id
  match redeemer with
  | .Callback cb => module_callback p cb spent_output_ref transaction spent host_state_input
  | .Operator op =>
    module_operator p (← decode_transfer_operator op) spent_output_ref transaction spent
      host_state_input

/-! ## Orders to send -/

/-- The channel and the data of a transfer that the module is asked to send. -/
def requested : IBCModuleRedeemer → Option (Bytes × FungibleTokenPacketData)
  | .Operator op =>
    match decode_transfer_operator op with
    | some (.Transfer channel_id data) => some (channel_id, data)
    | _ => none
  | .Callback (.OnSendPacket channel_id _ _ data) =>
    (decode_transfer_packet_data data).map fun d => (channel_id, d)
  | .Callback _ => none

/-- The module takes an order to send the way its operator does. -/
theorem spend_requested {p : Params} {redeemer : IBCModuleRedeemer} {ref : OutputReference}
    {tx : Transaction} {channel_id : Bytes} {data : FungibleTokenPacketData}
    (h : spend p redeemer ref tx = some true)
    (hreq : requested redeemer = some (channel_id, data)) :
    ∃ spent host, module_operator p (.Transfer channel_id data) ref tx spent host = some true := by
  simp only [spend, bind_eq_some] at h
  obtain ⟨⟨host, _⟩, _, _, _, _, _, spent, _, h⟩ := h
  cases redeemer with
  | Operator op =>
    simp only [requested] at hreq
    split at hreq
    · rename_i ch d hop
      cases hreq
      simp only [hop, bind_eq_some, Option.some.injEq, exists_eq_left'] at h
      exact ⟨spent, host, h⟩
    · cases hreq
  | Callback cb =>
    cases cb with
    | OnSendPacket ch packet_data commitment d =>
      simp only [requested, Option.map_eq_some_iff, Prod.mk.injEq] at hreq
      obtain ⟨d', hd, rfl, rfl⟩ := hreq
      simp only [module_callback, hd, bind_eq_some, Option.some.injEq, exists_eq_left'] at h
      obtain ⟨_, _, _, _, _, _, h⟩ := h
      exact ⟨spent, host, h⟩
    | _ => cases hreq

/-- What is sent is the data, checked and written out. -/
theorem module_operator_packet {p : Params} {channel_id : Bytes} {data : FungibleTokenPacketData}
    {ref : OutputReference} {tx : Transaction} {spent : transfer_escrow.TransferModuleSpend}
    {host : Input} (h : module_operator p (.Transfer channel_id data) ref tx spent host = some true) :
    fungible_token_packet_data.validate_basic data = true ∧
      ∃ packet, channelRedeemer p tx channel_id = some (.SendPacket packet) ∧
        packet.data = fungible_token_packet_data.get_bytes data := by
  simp only [module_operator, bind_eq_some, expect_eq_some] at h
  obtain ⟨-, -, -, hvalid, order, horder, packet, hpacket, -, hdata, -⟩ := h
  cases order with
  | SendPacket _ =>
    cases hpacket
    exact ⟨hvalid, packet, horder, (eq_of_beq hdata).symm⟩
  | _ => cases hpacket

end spend_transfer_module

end cardano_ibc
