-- A client's record and what an update may make of it: client_datum.ak.
import CardanoIbc.Ledger.Transaction

namespace cardano_ibc

def max_consensus_state_size : Nat := 300

def max_expected_time_per_block : Int := 4000000000

namespace client_state

def get_timestamp_at_height (consensus_states : List (Height × ConsensusState)) (h : Height) :
    Option Int :=
  (get_first consensus_states h).map fun cons_state => cons_state.timestamp

end client_state

namespace client_datum

def is_initialized_valid (datum : ClientDatum) (auth_token : AuthToken) : Option Bool := do
  expect (← client_state.validate datum.state.client_state)
  let latest_height := datum.state.client_state.latest_height
  match datum.state.consensus_states with
  | [height_consensus_state] =>
    return height_consensus_state.1 == latest_height &&
      has_key datum.state.processed_times latest_height &&
      has_key datum.state.processed_heights latest_height &&
      datum.token == auth_token
  | _ => return false

theorem is_initialized_valid_spec {datum : ClientDatum} {auth_token : AuthToken}
    (h : is_initialized_valid datum auth_token = some true) :
    datum.token = auth_token ∧ ∃ consensus_state, datum.state.consensus_states =
      [(datum.state.client_state.latest_height, consensus_state)] := by
  simp only [is_initialized_valid, bind_eq_some] at h
  obtain ⟨-, -, -, -, h⟩ := h
  split at h
  · rename_i pair hpair
    simp only [pure_eq_some, Bool.and_eq_true, beq_iff_eq] at h
    obtain ⟨⟨⟨hheight, -⟩, -⟩, htoken⟩ := h
    exact ⟨htoken, pair.2, by rw [hpair, ← hheight]⟩
  · simp at h

def processed_height_from_time (processed_time : Int) : Int :=
  processed_time / max_expected_time_per_block

/-- The consensus states that have not expired. -/
def liveConsensusStates (state : ClientDatumState) (now : Int) :
    List (Height × ConsensusState) :=
  state.consensus_states.filter fun item =>
    !client_state.is_expired state.client_state item.2.timestamp now

/-- The record after a header: what expired is dropped, the header's state goes first, and the
list is cut at its bound. -/
def expectedState (input : ClientDatumState) (header : Header) (header_height : Height)
    (tx_valid_from : Int) : ClientDatumState :=
  let processed_time := tx_valid_from * 1000000
  let live := liveConsensusStates input processed_time
  let keys := live.map Prod.fst
  let size := min (max_consensus_state_size - 1) live.length + 1
  { client_state := { input.client_state with latest_height := header_height }
    consensus_states := ((header_height, cardano_ibc.header.consensus_state header) :: live).take size
    processed_times := ((header_height, processed_time) ::
      input.processed_times.filter fun item => keys.contains item.1).take size
    processed_heights := ((header_height, processed_height_from_time processed_time) ::
      input.processed_heights.filter fun item => keys.contains item.1).take size }

def update_state (input_datum output_datum : ClientDatum) (header : Header)
    (tx_valid_from : Int) : Option Bool := do
  let header_height ← cardano_ibc.header.get_height header
  expect (!has_key input_datum.state.consensus_states header_height)
  let advances_latest_height :=
    height.compare header_height input_datum.state.client_state.latest_height == .gt
  return advances_latest_height &&
    { input_datum with
      state := expectedState input_datum.state header header_height tx_valid_from } ==
      output_datum

/-- The same for every misbehaviour. -/
def frozenHeight : Height := { revision_number := 0, revision_height := 1 }

def frozenDatum (input_datum : ClientDatum) : ClientDatum :=
  { input_datum with
    state := { input_datum.state with
      client_state := { input_datum.state.client_state with frozen_height := frozenHeight } } }

def update_state_on_misbehaviour (input_datum output_datum : ClientDatum) : Bool :=
  frozenDatum input_datum == output_datum

end client_datum

end cardano_ibc
