-- How the host state may change: host_state.ak.
import CardanoIbc.Ibc.ChannelDatum

namespace cardano_ibc.host_state

def empty_ibc_state_root : Bytes := List.replicate 32 0

def max_bound_ports : Nat := 10

/-- `builtin.less_than_bytearray` on the two keys with their lengths in front. Equal keys come
out as greater; the caller never has them. -/
def compare_port_keys_for_insertion (left right : Bytes) : Ordering :=
  if bytearray.compare (left.length.toUInt8 :: left) (right.length.toUInt8 :: right) = .lt
  then .lt else .gt

def is_active : ShutdownState → Bool
  | .Active => true
  | .ShuttingDown .. => false

def is_initialized_valid (datum : HostStateDatum) (expected_nft_policy : Bytes) : Bool :=
  datum.state.version == 0 && datum.state.next_client_sequence == 0 &&
    datum.state.next_connection_sequence == 0 && datum.state.next_channel_sequence == 0 &&
    datum.state.bound_port == [] && datum.state.ibc_state_root == empty_ibc_state_root &&
    datum.shutdown == .Active && datum.nft_policy == expected_nft_policy

def validate_version_increment (old new : HostState) : Bool := new.version == old.version + 1

/-- What every transition but a shutdown keeps, with how far each sequence moves on. -/
def moves (old new : HostStateDatum) (clients connections channels : Int) : Bool :=
  validate_version_increment old.state new.state &&
    new.state.next_client_sequence == old.state.next_client_sequence + clients &&
    new.state.next_connection_sequence == old.state.next_connection_sequence + connections &&
    new.state.next_channel_sequence == old.state.next_channel_sequence + channels &&
    new.nft_policy == old.nft_policy && new.deployer == old.deployer

theorem moves_next {old new : HostStateDatum} {clients connections channels : Int}
    (h : moves old new clients connections channels = true) (k : Kind) :
    k.next new.state = k.next old.state + match k with
      | .client => clients
      | .connection => connections
      | .channel => channels := by
  simp only [moves, Bool.and_eq_true, beq_iff_eq] at h
  obtain ⟨⟨⟨⟨⟨-, hclient⟩, hconnection⟩, hchannel⟩, -⟩, -⟩ := h
  cases k with
  | client => exact hclient
  | connection => exact hconnection
  | channel => exact hchannel

/-- Each kind of object is created by moving its own sequence on by one. -/
def createValid (old new : HostStateDatum) (clients connections channels : Int) : Bool :=
  moves old new clients connections channels && new.state.bound_port == old.state.bound_port &&
    is_active old.shutdown && new.shutdown == old.shutdown

def validate_create_client (old new : HostStateDatum) : Bool := createValid old new 1 0 0

def validate_create_connection (old new : HostStateDatum) : Bool := createValid old new 0 1 0

def validate_create_channel (old new : HostStateDatum) : Bool := createValid old new 0 0 1

def validate_bind_port (old new : HostStateDatum) (port_id : Bytes)
    (registration : ModuleRegistration) : Option Bool := do
  expect (!has_key old.state.bound_port port_id)
  return port_id.length ≥ 2 && port_id.length ≤ 128 &&
    old.state.bound_port.length < max_bound_ports && moves old new 0 0 0 &&
    new.state.bound_port == pairs.insert_by_ascending_key compare_port_keys_for_insertion
      old.state.bound_port port_id registration &&
    is_active old.shutdown && new.shutdown == old.shutdown

def validate_update_only_root (old new : HostStateDatum) : Bool :=
  moves old new 0 0 0 && new.state.bound_port == old.state.bound_port &&
    new.shutdown == old.shutdown

def validate_heartbeat (old new : HostStateDatum) : Bool :=
  validate_update_only_root old new && is_active old.shutdown &&
    new.state.ibc_state_root == old.state.ibc_state_root &&
    new.state.last_update_time > old.state.last_update_time

def validate_enter_shutdown (old new : HostStateDatum) (grace_period_end : Int) : Bool :=
  moves old new 0 0 0 && is_active old.shutdown &&
    new.shutdown == .ShuttingDown new.state.last_update_time grace_period_end &&
    grace_period_end > new.state.last_update_time &&
    new.state.ibc_state_root == old.state.ibc_state_root &&
    new.state.bound_port == old.state.bound_port

def validate_finalize_shutdown (datum : HostStateDatum) (valid_from : Int) : Bool :=
  match datum.shutdown with
  | .ShuttingDown _ grace_period_end => valid_from ≥ grace_period_end
  | .Active => false

end cardano_ibc.host_state
