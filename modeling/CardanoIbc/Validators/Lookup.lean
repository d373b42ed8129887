-- How a script finds the client, the connection, the channel and the application module it
-- depends on: the lookups of utils/validator_utils.ak.
import CardanoIbc.Ibc.HostState

namespace cardano_ibc.validator_utils

variable [Builtins]

/-! ## Clients and connections -/

def expected_client_token (referrer_token_name : Bytes) (client_minting_policy_id : PolicyId)
    (client_id : Bytes) : Option AuthToken := do
  let client_token_name ← auth.generate_token_name_from_another referrer_token_name
    client_prefix (parse_client_id_sequence client_id)
  return { policy_id := client_minting_policy_id, name := client_token_name }

def expected_connection_token (referrer_token_name : Bytes)
    (connection_minting_policy_id : PolicyId) (connection_id : Bytes) : Option AuthToken := do
  let connection_token_name ← auth.generate_token_name_from_another referrer_token_name
    connection_prefix (parse_connection_id_sequence connection_id)
  return { policy_id := connection_minting_policy_id, name := connection_token_name }

def validate_referred_client (reference_inputs : List Input) (referrer_token_name : Bytes)
    (client_minting_policy_id : PolicyId) (client_id : Bytes) : Option ClientDatum := do
  let client_token ← expected_client_token referrer_token_name client_minting_policy_id client_id
  let client_input ← find_authenticated_input reference_inputs client_token
  (← get_inline_datum client_input.output).asClient

omit [Builtins] in
/-- The connection, what stands after it, and whether a client may stand before it. -/
def find_connection_with_remaining_inputs (inputs : List Input) (connection_token : AuthToken)
    (client_minting_policy_id : PolicyId) (client_may_precede_connection : Bool) :
    Option (Input × List Input × Bool) :=
  match inputs with
  | [] => none
  | input :: remaining_inputs =>
    if auth.contain_auth_token input.output connection_token then
      some (input, remaining_inputs, client_may_precede_connection)
    else
      find_connection_with_remaining_inputs remaining_inputs connection_token
        client_minting_policy_id (client_may_precede_connection ||
          !(assets.tokens input.output.value client_minting_policy_id).isEmpty)

def validate_referred_connection_and_client (reference_inputs : List Input)
    (referrer_token_name : Bytes)
    (client_minting_policy_id connection_minting_policy_id : PolicyId) (connection_id : Bytes) :
    Option (ConnectionDatum × ClientDatum) := do
  let connection_token ← expected_connection_token referrer_token_name
    connection_minting_policy_id connection_id
  let (connection_input, remaining_inputs, client_may_precede_connection) ←
    find_connection_with_remaining_inputs reference_inputs connection_token
      client_minting_policy_id false
  let connection_datum ← (← get_inline_datum connection_input.output).asConnection
  let client_token ← expected_client_token referrer_token_name client_minting_policy_id
    connection_datum.state.client_id
  let client_search_inputs :=
    if client_may_precede_connection ||
        !(assets.tokens connection_input.output.value client_minting_policy_id).isEmpty then
      reference_inputs
    else remaining_inputs
  let client_input ← find_authenticated_input client_search_inputs client_token
  let client_datum ← (← get_inline_datum client_input.output).asClient
  return (connection_datum, client_datum)

/-! ## Modules -/

omit [Builtins] in
def registered_module_for_port (inputs : List Input) (host_state_nft_policy_id : PolicyId)
    (port_id : Bytes) (expected_port_token : AuthToken) : Option ModuleRegistration := do
  let host_state_input ← exactlyOne (inputs.filter fun input =>
    hasHostNft input.output host_state_nft_policy_id)
  let host_state_datum ← (← get_inline_datum host_state_input.output).asHostState
  let registration ← get_first host_state_datum.state.bound_port port_id
  expect (registration.port_token == expected_port_token)
  return registration

omit [Builtins] in
def registered_module_state_is_exact (output : Output) (registration : ModuleRegistration) :
    Option Bool :=
  match output.address.payment_credential with
  | .Script script_hash =>
    some (script_hash == registration.module_script_hash &&
      auth.contains_only_auth_tokens output
        [registration.port_token, registration.module_token])
  | .VerificationKey _ => none

omit [Builtins] in
def find_registered_module_state_input (inputs : List Input)
    (registration : ModuleRegistration) : Option (Option Input) :=
  match inputs.filter fun input =>
      auth.contain_auth_token input.output registration.port_token with
  | [] => some none
  | [module_input] => do
    expect (← registered_module_state_is_exact module_input.output registration)
    return some module_input
  | _ => none

omit [Builtins] in
def input_redeemer (redeemers : Redeemers) (input : Input) : Option IBCModuleRedeemer := do
  (← get_first redeemers (.Spend input.output_reference)).asIbcModule

def extract_module_redeemer (inputs : List Input) (redeemers : Redeemers)
    (port_minting_policy_id : PolicyId) (port_id : Bytes)
    (host_state_nft_policy_id : PolicyId) : Option IBCModuleRedeemer := do
  let port_token : AuthToken :=
    { policy_id := port_minting_policy_id, name := ← port_token_name port_id }
  let registration ←
    registered_module_for_port inputs host_state_nft_policy_id port_id port_token
  let module_input ← (← find_registered_module_state_input inputs registration)
  input_redeemer redeemers module_input

/-- The module spent for a packet: its root, which must come back as it was, or with the root
only referred to, the one other input at the module's script. -/
def extract_packet_module_redeemer (inputs reference_inputs : List Input)
    (outputs : List Output) (redeemers : Redeemers) (port_minting_policy_id : PolicyId)
    (port_id : Bytes) (host_state_nft_policy_id : PolicyId) : Option IBCModuleRedeemer := do
  let port_token : AuthToken :=
    { policy_id := port_minting_policy_id, name := ← port_token_name port_id }
  let registration ←
    registered_module_for_port inputs host_state_nft_policy_id port_id port_token
  match ← find_registered_module_state_input inputs registration with
  | some module_input =>
    let module_output ← exactlyOne (outputs.filter fun output =>
      auth.contain_auth_token output registration.port_token)
    expect (module_output.address == module_input.output.address)
    expect (← registered_module_state_is_exact module_output registration)
    input_redeemer redeemers module_input
  | none =>
    let _ ← (← find_registered_module_state_input reference_inputs registration)
    let module_spend_input ← exactlyOne (inputs.filter fun input =>
      input.output.address.payment_credential == .Script registration.module_script_hash)
    input_redeemer redeemers module_spend_input

/-! ## Channels -/

omit [Builtins] in
def extract_channel (inputs : List Input) (redeemers : Redeemers) (channel_token : AuthToken) :
    Option (ChannelDatum × SpendChannelRedeemer × Output) := do
  let channel_input ← exactlyOne (inputs.filter fun input =>
    auth.contain_auth_token input.output channel_token)
  let channel_datum ← (← get_inline_datum channel_input.output).asChannel
  let spend_channel_redeemer ←
    (← get_first redeemers (.Spend channel_input.output_reference)).asSpendChannelRedeemer
  return (channel_datum, spend_channel_redeemer, channel_input.output)

end cardano_ibc.validator_utils
