-- What the root of the host state is meant to commit to: every bound port and the record of every
-- client, connection and channel, each value at its ICS-24 path.
import CardanoIbc.Ibc.CommitmentTree
import CardanoIbc.Ledger.Runs

namespace cardano_ibc

open host_state_stt ibc_state_commitment

/-! ## The entries of a record -/

def portEntries (bound_port : List (Bytes × ModuleRegistration)) : List (Bytes × Bytes) :=
  bound_port.map fun (port_id, registration) =>
    ( key_port_prefix ++ slash ++ port_id, cbor.serialise registration)

def clientEntries (client_id : Bytes) (client : ClientDatumState) : List (Bytes × Bytes) :=
  (full_client_state_path client_id, cbor.serialise client.client_state) ::
    client.consensus_states.map fun (height, consensus_state) =>
      (full_client_consensus_state_path client_id (int_to_string height.revision_height),
        cbor.serialise consensus_state)

def connectionEntries (connection_id : Bytes) (connection : ConnectionEnd) :
    List (Bytes × Bytes) :=
  [(connection_path connection_id, cbor.serialise connection)]

/-- The entries of a channel's packets of one kind, at the path of that kind. -/
def packetEntries (path : Int → Bytes) (packets : List (Int × Bytes)) : List (Bytes × Bytes) :=
  packets.map fun (sequence, bz) => (path sequence, cbor.serialise bz)

def channelEntries (port_id channel_id : Bytes) (state : ChannelDatumState) :
    List (Bytes × Bytes) :=
  [(channel_path port_id channel_id, cbor.serialise state.channel),
    (next_sequence_send_path port_id channel_id, cbor.serialise state.next_sequence_send),
    (next_sequence_recv_path port_id channel_id, cbor.serialise state.next_sequence_recv),
    (next_sequence_ack_path port_id channel_id, cbor.serialise state.next_sequence_ack)] ++
  packetEntries (packet_commitment_path port_id channel_id) state.packet_commitment ++
  packetEntries (packet_receipt_path port_id channel_id) state.packet_receipt ++
  packetEntries (packet_acknowledgement_path port_id channel_id) state.packet_acknowledgement

/-- The entries of the object whose token has this name. -/
def Data.entries (n : AssetName) : Data → Option (List (Bytes × Bytes))
  | .client c => do return clientEntries (← client_id_from_token_name n) c.state
  | .connection c => do return connectionEntries (← connection_id_from_token_name n) c.state
  | .channel c => do return channelEntries c.port_id (← channel_id_from_token_name n) c.state
  | _ => none

/-! ## The host state and the records -/

/-- The ledger's records and the host state's ports have this value at this path. -/
def Hashes.Holds (d : Hashes) (L : Ledger) (hd : HostStateDatum) (key value : Bytes) : Prop :=
  (key, value) ∈ portEntries hd.state.bound_port ∨
    ∃ k n data entries, d.Record k L n data ∧ data.entries n = some entries ∧
      (key, value) ∈ entries

/-- The root is the root of exactly what the ledger holds. -/
def Hashes.Synchronised [Builtins] (d : Hashes) (L : Ledger) (hd : HostStateDatum) : Prop :=
  ∃ entries : List (Bytes × Bytes), (entries.map Prod.fst).Nodup ∧
    (∀ key value, (key, value) ∈ entries ↔ d.Holds L hd key value) ∧
    treeRoot entries = hd.state.ibc_state_root

end cardano_ibc
