-- The bridge as it is deployed: which script stands behind which hash, and with which other
-- hashes it was built (offchain/src/deployment.ts).
import CardanoIbc.Ledger.Rules
import CardanoIbc.Validators.HostStateStt
import CardanoIbc.Validators.Operations

namespace cardano_ibc

/-- The hash of each script, and the output that was spent to mint the host state's token. -/
structure Hashes where
  nonce : OutputReference
  host_state_nft : PolicyId
  host_state_stt : ScriptHash
  mint_client : PolicyId
  spend_client : ScriptHash
  mint_connection : PolicyId
  spend_connection : ScriptHash
  mint_channel : PolicyId
  spend_channel : ScriptHash
  mint_port : PolicyId
  verify_proof : PolicyId
  chan_open_ack : PolicyId
  chan_open_confirm : PolicyId
  chan_close_init : PolicyId
  chan_close_confirm : PolicyId
  recv_packet : PolicyId
  send_packet : PolicyId
  timeout_packet : PolicyId
  acknowledge_packet : PolicyId
  prune_packet_history : PolicyId

namespace Hashes

def all (d : Hashes) : List Bytes :=
  [d.host_state_nft, d.host_state_stt, d.mint_client, d.spend_client, d.mint_connection,
    d.spend_connection, d.mint_channel, d.spend_channel, d.mint_port, d.verify_proof,
    d.chan_open_ack, d.chan_open_confirm, d.chan_close_init, d.chan_close_confirm,
    d.recv_packet, d.send_packet, d.timeout_packet, d.acknowledge_packet,
    d.prune_packet_history]

def hostParams (d : Hashes) : host_state_stt.Params :=
  { nft_policy := d.host_state_nft
    spend_client_script_hash := d.spend_client
    spend_connection_script_hash := d.spend_connection
    spend_channel_script_hash := d.spend_channel }

def mintChannelParams (d : Hashes) : mint_channel_stt.Params :=
  { client_minting_policy_id := d.mint_client
    connection_minting_policy_id := d.mint_connection
    port_minting_policy_id := d.mint_port
    verify_proof_policy_id := d.verify_proof
    spend_channel_script_hash := d.spend_channel
    host_state_nft_policy_id := d.host_state_nft }

def spendChannelParams (d : Hashes) : spend_channel.Params :=
  { chan_open_ack_policy_id := d.chan_open_ack
    chan_open_confirm_policy_id := d.chan_open_confirm
    chan_close_init_policy_id := d.chan_close_init
    chan_close_confirm_policy_id := d.chan_close_confirm
    recv_packet_policy_id := d.recv_packet
    send_packet_policy_id := d.send_packet
    timeout_packet_policy_id := d.timeout_packet
    acknowledge_packet_policy_id := d.acknowledge_packet
    prune_packet_history_policy_id := d.prune_packet_history
    host_state_nft_policy_id := d.host_state_nft }

def policies (d : Hashes) : Policies :=
  { client_minting_policy_id := d.mint_client
    connection_minting_policy_id := d.mint_connection
    port_minting_policy_id := d.mint_port
    verify_proof_policy_id := d.verify_proof
    host_state_nft_policy_id := d.host_state_nft }

/-- The datum argument of a spending script: present data that does not fit stops it. -/
def castDatum {α : Type} (cast : Data → Option α) : Option Data → Option (Option α)
  | none => some none
  | some data => (cast data).map some

/-- `else(_) { fail }` on the spending side. -/
def noSpend : SpendScript := fun _ _ _ _ => none

/-- `else(_) { fail }` on the minting side. -/
def noMint : MintScript := fun _ _ _ => none

variable [Builtins]

/-- A script whose redeemer is a channel's token, on its minting side. -/
def marker (run : AuthToken → PolicyId → Transaction → Option Bool) : MintScript :=
  fun redeemer policy tx => do run (← redeemer.asAuthToken) policy tx

/-- A script whose redeemer is a channel's token, on its spending side. -/
def channelSpend (run : AuthToken → Transaction → Option Bool) : SpendScript :=
  fun _ redeemer _ tx => do run (← redeemer.asAuthToken) tx

def hostSpend (d : Hashes) : SpendScript := fun _ redeemer _ tx => do
  host_state_stt.spend d.hostParams (← redeemer.asHostStateRedeemer) tx

def clientMint (d : Hashes) : MintScript := fun _ policy tx =>
  mint_client_stt.mint d.spend_client d.host_state_nft policy tx

def clientSpend (d : Hashes) : SpendScript := fun datum redeemer reference tx => do
  spend_client.spend d.host_state_nft (← castDatum Data.asClient datum)
    (← redeemer.asSpendClientRedeemer) reference tx

def connectionMint (d : Hashes) : MintScript := fun redeemer policy tx => do
  mint_connection_stt.mint d.mint_client d.verify_proof d.spend_connection d.host_state_nft
    (← redeemer.asMintConnectionRedeemer) policy tx

def connectionSpend (d : Hashes) : SpendScript := fun datum redeemer reference tx => do
  spend_connection.spend d.mint_client d.verify_proof d.host_state_nft
    (← castDatum Data.asConnection datum) (← redeemer.asSpendConnectionRedeemer) reference tx

def channelMint (d : Hashes) : MintScript := fun redeemer policy tx => do
  mint_channel_stt.mint d.mintChannelParams (← redeemer.asMintChannelRedeemer) policy tx

def channelSpendScript (d : Hashes) : SpendScript := fun datum redeemer reference tx => do
  spend_channel.spend d.spendChannelParams (← castDatum Data.asChannel datum)
    (← redeemer.asSpendChannelRedeemer) reference tx

/-- Both sides of every script. -/
def table (d : Hashes) : List (Bytes × SpendScript × MintScript) :=
  [(d.host_state_nft, noSpend, fun _ policy tx => host_state_nft.mint d.nonce policy tx),
    (d.host_state_stt, d.hostSpend, noMint),
    (d.mint_client, noSpend, d.clientMint),
    (d.spend_client, d.clientSpend, noMint),
    (d.mint_connection, noSpend, d.connectionMint),
    (d.spend_connection, d.connectionSpend, noMint),
    (d.mint_channel, noSpend, d.channelMint),
    (d.spend_channel, d.channelSpendScript, noMint),
    (d.mint_port, noSpend, fun redeemer policy tx => do
      mint_port.mint d.host_state_nft (← redeemer.asMintPort) policy tx),
    (d.verify_proof, noSpend, fun redeemer policy tx => do
      verify_proof.mint (← redeemer.asVerifyProof) policy tx),
    (d.chan_open_ack, noSpend, marker (chan_open_ack.mint d.policies)),
    (d.chan_open_confirm, channelSpend (chan_open_confirm.spend d.policies), noMint),
    (d.chan_close_init, channelSpend (chan_close_init.spend d.policies), noMint),
    (d.chan_close_confirm, channelSpend (chan_close_confirm.spend d.policies), noMint),
    (d.recv_packet, noSpend, marker (recv_packet.mint d.policies)),
    (d.send_packet, channelSpend (send_packet.spend d.policies),
      marker (send_packet.mint d.policies)),
    (d.timeout_packet, noSpend, marker (timeout_packet.mint d.policies)),
    (d.acknowledge_packet, noSpend, marker (acknowledge_packet.mint d.policies)),
    (d.prune_packet_history, noSpend, marker (prune_packet_history.mint d.policies))]

def scripts (d : Hashes) : Scripts where
  spend hash := (get_first d.table hash).map Prod.fst
  mint policy := (get_first d.table policy).map Prod.snd

end Hashes

/-- Scripts that differ have hashes that differ, and no hash is the empty string. -/
structure Deployment extends Hashes where
  distinct : toHashes.all.Nodup
  named : [] ∉ toHashes.all

namespace Deployment

variable [Builtins]

/-- The script behind a hash of the deployment is the one that was deployed there. -/
theorem scripts_spec (d : Deployment) {hash : Bytes} {spend : SpendScript} {mint : MintScript}
    (h : (hash, spend, mint) ∈ d.table) :
    d.scripts.spend hash = some spend ∧ d.scripts.mint hash = some mint := by
  have hnodup : (d.table.map Prod.fst).Nodup := d.distinct
  simp [Hashes.scripts, get_first_of_mem hnodup h]

end Deployment

/-- The transactions a deployed bridge lives under. -/
abbrev Deployment.Accepted [Builtins] (d : Deployment) (L : Ledger) (tx : Transaction) : Prop :=
  Ledger.Accepted d.scripts L tx

end cardano_ibc
