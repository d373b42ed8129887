-- A connection's record, the handshake steps it may take and the message it is proved as:
-- connection_datum.ak, connection_end.ak, version.ak and connection_pb.ak.
import CardanoIbc.Ledger.Transaction

namespace cardano_ibc

/-! ## Versions -/

namespace version

def get_supported_orderings : List Bytes := [utf8 "ORDER_ORDERED", utf8 "ORDER_UNORDERED"]

def get_default_ibc_version : Version :=
  { identifier := utf8 "1", features := get_supported_orderings }

def get_compatible_versions : List Version := [get_default_ibc_version]

def validate_version (version : Version) : Bool :=
  trim_space version.identifier != [] &&
    version.features.all fun feature => trim_space feature != []

/-- No identifier may come without features. -/
def verify_proposed_version (version proposed_version : Version) : Bool :=
  version.identifier == proposed_version.identifier && !proposed_version.features.isEmpty &&
    proposed_version.features.all fun feature => version.features.contains feature

def is_supported_version (supported_versions : List Version) (proposed_version : Version) :
    Option Bool := do
  let supported_version ←
    supported_versions.find? fun ver => ver.identifier == proposed_version.identifier
  return verify_proposed_version supported_version proposed_version

def verify_supported_feature (version : Version) (feature : Bytes) : Bool :=
  version.features.contains feature

end version

/-! ## Connection ends -/

namespace connection_counterparty

def validate_basic (c : Counterparty) : Bool :=
  (c.connection_id == [] || connection_identifier_validator c.connection_id) &&
    client_identifier_validator c.client_id && c.prefixKey.key_prefix.length != 0

end connection_counterparty

namespace connection_end

def validate_basic (c : ConnectionEnd) : Bool :=
  is_valid_client_id c.client_id && !c.versions.isEmpty &&
    c.versions.all version.validate_version &&
    connection_counterparty.validate_basic c.counterparty

end connection_end

namespace connection_datum

/-- Both ways of opening ask for the same but for the state and the counterparty's id. -/
def openValid (datum : ConnectionDatum) (auth_token : AuthToken) (state : ConnectionState)
    (counterpartyKnown : Bool) : Option Bool :=
  pure (connection_end.validate_basic datum.state && datum.token == auth_token) <&&>
    datum.state.versions.allM (version.is_supported_version version.get_compatible_versions) <&&>
    pure (datum.state.state == state &&
      (datum.state.counterparty.connection_id != []) == counterpartyKnown)

theorem openValid_token {datum : ConnectionDatum} {auth_token : AuthToken}
    {state : ConnectionState} {known : Bool}
    (h : openValid datum auth_token state known = some true) : datum.token = auth_token := by
  simp only [openValid, and_accepts, pure_eq_some, Bool.and_eq_true, beq_iff_eq] at h
  exact h.1.2

def is_conn_open_init_valid (datum : ConnectionDatum) (auth_token : AuthToken) : Option Bool :=
  openValid datum auth_token .Init false

def is_conn_open_try_valid (datum : ConnectionDatum) (auth_token : AuthToken) : Option Bool :=
  openValid datum auth_token .TryOpen true

def is_connection_open_ack_valid (input_datum output_datum : ConnectionDatum) :
    Option Bool := do
  expect (input_datum.state.state == .Init)
  expect (connection_identifier_validator output_datum.state.counterparty.connection_id)
  return output_datum.token == input_datum.token &&
    output_datum.state.client_id == input_datum.state.client_id &&
    output_datum.state.state == .Open &&
    output_datum.state.versions == input_datum.state.versions &&
    output_datum.state.delay_period == input_datum.state.delay_period &&
    output_datum.state.counterparty.client_id == input_datum.state.counterparty.client_id &&
    output_datum.state.counterparty.prefixKey == input_datum.state.counterparty.prefixKey

def is_connection_open_confirm_valid (input_datum output_datum : ConnectionDatum) :
    Option Bool := do
  expect (input_datum.state.state == .TryOpen)
  return output_datum.token == input_datum.token &&
    output_datum.state.client_id == input_datum.state.client_id &&
    output_datum.state.state == .Open &&
    output_datum.state.versions == input_datum.state.versions &&
    output_datum.state.delay_period == input_datum.state.delay_period &&
    output_datum.state.counterparty == input_datum.state.counterparty

end connection_datum

/-- A block delay is the connection's delay in blocks of the longest time a block may take. -/
def get_block_delay (connection : ConnectionEnd) : Option Int := do
  let time_delay := connection.delay_period
  expect (time_delay ≥ 0)
  let blocks := time_delay / 4000000000
  return if blocks * 4000000000 = time_delay then blocks else blocks + 1

/-! ## The message a connection end is proved as -/

namespace connection_pb

def field_3_varint : Int := 0x18
def field_3_length_delimited : Int := 0x1a
def field_5_varint : Int := 0x28

def state_to_int32 : ConnectionState → Int
  | .Uninitialized => 0
  | .Init => 1
  | .TryOpen => 2
  | .Open => 3

def marshal_for_version (version : Version) : Option (Int × Bytes) := do
  let identifier ← encode_bytearray version.identifier field_1_length_delimited
  let features ← version.features.foldlM (fun (size, bz1) feature => do
    let l := feature.length
    let bz2 ← push ((← encode_length_varint l) ++ feature) field_2_length_delimited
    return (size + sov_length l + l + 1, bz1 ++ bz2)) ((0 : Int), ([] : Bytes))
  return add_and_concat (size_and_concat (0, []) identifier) features

def marshal_for_merkle_prefix (start : MerklePrefix) : Option (Int × Bytes) := do
  return size_and_concat (0, []) (← encode_bytearray start.key_prefix field_1_length_delimited)

def marshal_for_counterparty (counterparty : Counterparty) : Option (Int × Bytes) := do
  let client_id ← encode_bytearray counterparty.client_id field_1_length_delimited
  let connection_id ← encode_bytearray counterparty.connection_id field_2_length_delimited
  let (size, bz1) ← marshal_for_merkle_prefix counterparty.prefixKey
  let bz2 ← push ((← encode_length_varint size) ++ bz1) field_3_length_delimited
  return add_and_concat (size_and_concat (size_and_concat (0, []) client_id) connection_id)
    (sov_length size + size + 1, bz2)

def marshal_for_connection_end (c : ConnectionEnd) : Option Bytes := do
  let (_, client_id) ← encode_bytearray c.client_id field_1_length_delimited
  let versions ← c.versions.foldlM (fun bz1 version => do
    let (size, bz2) ← marshal_for_version version
    return bz1 ++ (← push ((← encode_length_varint size) ++ bz2) field_2_length_delimited)) []
  let int_state := state_to_int32 c.state
  let state ← if int_state = 0 then some [] else do
    push (← encode_varint int_state) field_3_varint
  let (size, bz) ← marshal_for_counterparty c.counterparty
  let counterparty ← push ((← encode_length_varint size) ++ bz) field_4_length_delimited
  let delay_period ← if c.delay_period = 0 then some [] else do
    push (← encode_varint c.delay_period) field_5_varint
  return client_id ++ versions ++ state ++ counterparty ++ delay_period

end connection_pb

end cardano_ibc
