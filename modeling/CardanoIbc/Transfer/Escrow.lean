-- Native tokens the transfer application holds: value_delta.ak, transfer_escrow_shard.ak and
-- escrow.ak. Each channel and denomination has an output of its own, a shard.
import CardanoIbc.Library.Text
import CardanoIbc.Transfer.PacketData

namespace cardano_ibc

open validator_utils

/-- The output holds what the input held and the additional value, or more lovelace. -/
def value_delta.validate_output_amount (locked_input : Input) (output : Output)
    (additional_value : Value) : Bool :=
  let expected_output := assets.merge locked_input.output.value additional_value
  assets.lovelace_of output.value - assets.lovelace_of expected_output ≥ 0 &&
    assets.match_assets output.value expected_output

/-! ## Names of shards -/

namespace transfer_escrow_shard

def shard_token_domain : Bytes := utf8 "cardano-ibc/transfer-escrow-shard/v1"

def uint32_max : Nat := 4294967295

def shard_token_preimage (channel_id denom : Bytes) : Option Bytes := do
  expect (channel_id.length ≤ uint32_max)
  expect (denom.length ≤ uint32_max)
  return shard_token_domain ++ [0] ++ (← from_int_big_endian channel_id.length 4) ++ channel_id ++
    (← from_int_big_endian denom.length 4) ++ denom

variable [Builtins]

def shard_token_name (channel_id denom : Bytes) : Option Bytes := do
  return blake2b_224 (← shard_token_preimage channel_id denom)

end transfer_escrow_shard

/-! ## Spending the module -/

namespace transfer_escrow

inductive TransferModuleSpend where
  | ModuleState (updated_output : Output) (datum_changed : Bool)
  | EscrowShard (datum : TransferEscrowDatum) (updated_output : Option Output)
deriving DecidableEq, Repr

def has_module_state_tokens (output : Output) (port_token module_token : AuthToken) : Bool :=
  auth.contain_auth_token output port_token && auth.contain_auth_token output module_token

def transfer_escrow_datum (channel_id denom : Bytes) : TransferEscrowDatum := { channel_id, denom }

def expect_module_state (spend : TransferModuleSpend) : Option Output :=
  match spend with
  | .ModuleState updated_output datum_changed => if datum_changed then none else some updated_output
  | .EscrowShard .. => none

variable [Builtins]

def escrow_shard_token_name (datum : TransferEscrowDatum) : Option Bytes :=
  transfer_escrow_shard.shard_token_name datum.channel_id datum.denom

def escrow_shard_has_nft (output : Output) (datum : TransferEscrowDatum)
    (shard_policy_id : PolicyId) : Option Bool := do
  let name ← escrow_shard_token_name datum
  return assets.quantity_of output.value shard_policy_id name == 1

/-- The token is looked at first: the datum of an output without it is never cast. -/
def escrow_output_matches (output : Output) (address : Address) (datum : TransferEscrowDatum)
    (shard_policy_id : PolicyId) : Option Bool := do
  if output.address ≠ address then return false
  else if !(← escrow_shard_has_nft output datum shard_policy_id) then return false
  else
    match output.datum with
    | .InlineDatum data => return (← data.asTransferEscrow) == datum
    | _ => return false

omit [Builtins] in
/-- At most one. -/
def atMostOne {α : Type} : List α → Option (Option α)
  | [] => some none
  | [x] => some (some x)
  | _ => none

def find_escrow_output (outputs : List Output) (spent_output : Output)
    (datum : TransferEscrowDatum) (shard_policy_id : PolicyId) : Option (Option Output) := do
  atMostOne (← filterScript (fun output =>
    escrow_output_matches output spent_output.address datum shard_policy_id) outputs)

def find_matching_escrow_input (inputs : List Input) (address : Address)
    (datum : TransferEscrowDatum) (shard_policy_id : PolicyId) : Option (Option Input) := do
  atMostOne (← filterScript (fun input =>
    escrow_output_matches input.output address datum shard_policy_id) inputs)

/-- Whatever is spent at the module is its root, marked by both tokens, or a shard. -/
def classify_transfer_module_spend (spent_output : Output) (outputs : List Output)
    (port_token module_token : AuthToken) (shard_policy_id : PolicyId) :
    Option TransferModuleSpend := do
  if has_module_state_tokens spent_output port_token module_token then
    let updated_output ← exactlyOne (outputs.filter fun output =>
      output.address == spent_output.address &&
        has_module_state_tokens output port_token module_token)
    return .ModuleState updated_output (spent_output.datum != updated_output.datum)
  else
    let datum ← (← get_inline_datum spent_output).asTransferEscrow
    expect (← escrow_shard_has_nft spent_output datum shard_policy_id)
    let updated_output ← find_escrow_output outputs spent_output datum shard_policy_id
    return .EscrowShard datum updated_output

/-! ## What a shard holds -/

/-- What a shard of this denomination holds beside lovelace: its token and the tokens escrowed. -/
def expectedShard (value : Value) (name : Bytes) (shard_policy_id : PolicyId)
    (escrowed_token_unit : Bytes) : Option Value := do
  let (policy_id, token_name) ← extract_token_unit escrowed_token_unit
  let escrowed_quantity := assets.quantity_of value policy_id token_name
  let shard_nft_value := assets.from_asset shard_policy_id name 1
  return if escrowed_token_unit = utf8 "lovelace" then shard_nft_value
    else assets.merge shard_nft_value (assets.from_asset policy_id token_name escrowed_quantity)

def escrow_value_is_single_asset (output : Output) (datum : TransferEscrowDatum)
    (shard_policy_id : PolicyId) (escrowed_token_unit : Bytes) : Option Bool := do
  let name ← escrow_shard_token_name datum
  let expected_non_lovelace ← expectedShard output.value name shard_policy_id escrowed_token_unit
  return assets.match_assets output.value expected_non_lovelace

def validate_created_escrow_shard (outputs : List Output) (address : Address)
    (datum : TransferEscrowDatum) (shard_policy_id : PolicyId) (mint : Value)
    (transfer_amount : Int) (escrowed_token_unit : Bytes) : Option Bool := do
  let created_output ← exactlyOne (← filterScript (fun output =>
    escrow_output_matches output address datum shard_policy_id) outputs)
  let (policy_id, token_name) ← extract_token_unit escrowed_token_unit
  let created_quantity := assets.quantity_of created_output.value policy_id token_name
  let name ← escrow_shard_token_name datum
  pure (assets.quantity_of mint shard_policy_id name == 1) <&&>
    escrow_value_is_single_asset created_output datum shard_policy_id escrowed_token_unit <&&>
    -- a shard of lovelace may hold more, for the ledger's minimum
    pure (if escrowed_token_unit = utf8 "lovelace" then created_quantity ≥ transfer_amount
      else created_quantity == transfer_amount)

def validate_escrow_shard_update (spent_input : Input) (spend : TransferModuleSpend)
    (expected_datum : TransferEscrowDatum) (shard_policy_id : PolicyId) (mint : Value)
    (expected_value_difference : Value) (escrowed_token_unit : Bytes) : Option Bool := do
  match spend with
  | .ModuleState .. => none
  | .EscrowShard datum updated_output =>
    expect (datum == expected_datum)
    let (policy_id, token_name) ← extract_token_unit escrowed_token_unit
    let expected_output := assets.merge spent_input.output.value expected_value_difference
    let expected_escrow_quantity := assets.quantity_of expected_output policy_id token_name
    let name ← escrow_shard_token_name expected_datum
    let shard_mint_quantity := assets.quantity_of mint shard_policy_id name
    escrow_shard_has_nft spent_input.output expected_datum shard_policy_id <&&>
      escrow_value_is_single_asset spent_input.output expected_datum shard_policy_id
        escrowed_token_unit <&&>
      if expected_escrow_quantity ≥ 0 then do
        let output ← updated_output
        pure (shard_mint_quantity == 0 &&
            value_delta.validate_output_amount spent_input output expected_value_difference) <&&>
          escrow_value_is_single_asset output expected_datum shard_policy_id escrowed_token_unit
      else return false

def validate_matching_escrow_input_update (escrow_input : Input) (outputs : List Output)
    (datum : TransferEscrowDatum) (shard_policy_id : PolicyId) (mint : Value)
    (expected_value_difference : Value) (escrowed_token_unit : Bytes) : Option Bool := do
  let updated_output ← find_escrow_output outputs escrow_input.output datum shard_policy_id
  validate_escrow_shard_update escrow_input (.EscrowShard datum updated_output) datum
    shard_policy_id mint expected_value_difference escrowed_token_unit

/-- With the root spent the shard is another input, or is created. With a shard spent, it is that
shard. -/
def validate_module_escrow_transition (spent_input : Input) (spend : TransferModuleSpend)
    (inputs : List Input) (outputs : List Output) (datum : TransferEscrowDatum)
    (shard_policy_id : PolicyId) (mint : Value) (transfer_amount : Int)
    (expected_value_difference : Value) (escrowed_token_unit : Bytes) : Option Bool := do
  match spend with
  | .ModuleState updated_output datum_changed =>
    let preserved_module_state :=
      value_delta.validate_output_amount spent_input updated_output assets.zero
    let matching_escrow_input ←
      find_matching_escrow_input inputs spent_input.output.address datum shard_policy_id
    let name ← escrow_shard_token_name datum
    let shard_mint_quantity := assets.quantity_of mint shard_policy_id name
    -- the root's datum changes exactly where a shard is created
    let registry_transition_is_authorized :=
      if datum_changed then shard_mint_quantity == 1 else shard_mint_quantity == 0
    pure preserved_module_state <&&> pure registry_transition_is_authorized <&&>
      match matching_escrow_input with
      | some escrow_input =>
        validate_matching_escrow_input_update escrow_input outputs datum shard_policy_id mint
          expected_value_difference escrowed_token_unit
      | none =>
        pure (transfer_amount > 0) <&&>
          validate_created_escrow_shard outputs spent_input.output.address datum shard_policy_id
            mint transfer_amount escrowed_token_unit
  | .EscrowShard .. =>
    validate_escrow_shard_update spent_input spend datum shard_policy_id mint
      expected_value_difference escrowed_token_unit

end transfer_escrow

end cardano_ibc
