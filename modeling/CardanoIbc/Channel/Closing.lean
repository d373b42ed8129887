-- The end of the handshake and the closing of a channel. Their scripts are the policies of the
-- markers a channel is spent with, and as policies they always stop.
import CardanoIbc.Channel.Moves
import CardanoIbc.Ledger.Synchronised

namespace cardano_ibc

open validator_utils ibc_state_commitment

/-! ## Channels that are ready -/

/-- The state a channel must be in for the end of the handshake or for closing, and the state its
counterparty must be proven to be in. -/
def SpendChannelRedeemer.completes :
    SpendChannelRedeemer → Option (ChannelState × Option (ChannelState × MerkleProof × Height))
  | .ChanOpenConfirm proof_ack proof_height =>
    some (.TryOpen, some (.Open, proof_ack, proof_height))
  | .ChanCloseInit => some (.Open, none)
  | .ChanCloseConfirm proof_init proof_height =>
    some (.Open, some (.Closed, proof_init, proof_height))
  | _ => none

section Ready

variable [Builtins]

/-- The check that a proof shows the counterparty's end of the channel in a state. -/
def endProven (connection : ConnectionEnd) (client : ClientDatumState) (c : ChannelDatum)
    (channel_id : Bytes) (valid_from : Int) :
    Option (ChannelState × MerkleProof × Height) → Option Bool
  | none => some true
  | some (state, proof, proof_height) => do
    let (_, channel_bz) ← channel_pb.marshal_for_channel
      (counterpartyChannel connection c channel_id c.state.channel.version state)
    let params ← membershipAt connection client proof_height proof
      (channel_path c.state.channel.counterparty.port_id
        c.state.channel.counterparty.channel_id) channel_bz
    client_state.verify_membership params (valid_from * 1000000)
      (client_datum.processed_height_from_time (valid_from * 1000000))

/-- A channel for which the order is due between two times: its connection is open, its client
active, and the proof in the order is good. -/
structure Ready (d : Hashes) (L : Ledger) (valid_from valid_to : Int) (n : AssetName)
    (order : SpendChannelRedeemer) (r : Route) (c : ChannelDatum) (connection : ConnectionDatum)
    (client : ClientDatum) : Prop where
  genuine : d.Record .channel L n (.channel c)
  hops : c.state.channel.connection_hops = [r.connection_id]
  serves : r.Serves d L n
  connected : d.Record .connection L r.connection (.connection connection)
  is_open : connection.state.state = .Open
  tracked : d.Record .client L r.client (.client client)
  active : clientIsActive client.state valid_to = true
  due : ∃ channel_id proven, host_state_stt.channel_id_from_token_name n = some channel_id ∧
    order.completes = some (c.state.channel.state, proven) ∧
    endProven connection.state client.state c channel_id valid_from proven = some true

variable {d : Deployment} {L : Ledger} {tx : Transaction} {n : AssetName} {host : Input}
  {hd : HostStateDatum} {order : SpendChannelRedeemer}

/-- What is carried out on a channel is none of these operations. -/
theorem Performs.completes_none {policies : Policies} {op : Operation}
    (h : Performs policies tx op) : op.redeemer.completes = none := by
  cases h with
  | openAck h =>
    obtain ⟨version, proof, height, hordered⟩ := h.ordered
    rw [hordered]
    rfl
  | send h => rw [h.ordered]; rfl
  | recv h => rw [h.ordered]; rfl
  | acknowledge h => rw [h.ordered]; rfl
  | timeout h =>
    obtain ⟨proof, proof_height, next_sequence_recv, hordered⟩ := h.ordered
    rw [hordered]
    rfl
  | prune h => rw [h.ordered]; rfl

/-- No transaction ends the handshake of a channel, closes it or confirms that it is closed. -/
theorem never_completed (t : Threads d.toHashes L host hd) (hcompletes : order.completes ≠ none) :
    ¬ ∃ tx, d.Accepted L tx ∧ d.orderFor n tx = some order := by
  rintro ⟨tx, h, hordered⟩
  obtain ⟨op, _, _, _, _, rfl, -, -, hperforms⟩ := t.order_performed h hordered
  exact hcompletes hperforms.completes_none

/-- Where the end of the handshake, closing or the answer to it is due, no transaction carries it
out, at no time and with no proof. -/
theorem due_orders_are_never_carried_out (t : Threads d.toHashes L host hd)
    {valid_from valid_to : Int} {r : Route} {c : ChannelDatum} {connection : ConnectionDatum}
    {client : ClientDatum}
    (hready : Ready d.toHashes L valid_from valid_to n order r c connection client) :
    ¬ ∃ tx, d.Accepted L tx ∧ d.orderFor n tx = some order := by
  obtain ⟨_, _, -, hcompletes, -⟩ := hready.due
  apply never_completed t
  rw [hcompletes]
  exact Option.some_ne_none _

end Ready

/-! ### Channels that are ready and stay as they are -/

section Sample

local instance closingBuiltins : Builtins := runningBuiltins

/-- A channel the counterparty has opened its end of. -/
def triedChannel : ChannelDatum := runningChannel "1" .TryOpen (utf8 "channel-8")

def closingEntries : List (Bytes × Bytes) :=
  portEntries [(utf8 "transfer", runningPort)] ++
    clientEntries (utf8 "07-tendermint-0") runningClient.state ++
    connectionEntries (utf8 "connection-0") runningConnection.state ++
    channelEntries (utf8 "transfer") (utf8 "channel-0") runningOpenChannel.state ++
    channelEntries (utf8 "transfer") (utf8 "channel-1") triedChannel.state

def closingHost : HostStateDatum := runningHostDatum 5 2 (treeRoot closingEntries)

def closingHostInput : Input := runningInput 0 (sampleHostOutput closingHost)

def closingLedger : Ledger where
  utxos := [closingHostInput, sampleWallet, runningModule, runningClientInput,
    runningConnectionInput, runningChannelInput, runningInput 6 (runningChannelOutput triedChannel)]
  past := [List.replicate 32 90, List.replicate 32 91]
  nodup := by decide
  created := by decide
  nonneg := by decide

theorem closingLedger_threaded (k : Kind) :
    sampleBridge.threaded closingLedger closingHost.state k = true := by
  cases k <;> decide +kernel

theorem closingLedger_threads :
    Threads sampleBridge.toHashes closingLedger closingHostInput closingHost where
  nonce_spent := by decide
  nonce_past := by decide
  host_live := List.mem_cons_self
  host_nft := by decide
  host_supply := by decide
  host_script := rfl
  host_datum := rfl
  counted k := by cases k <;> decide
  objects k u hu n hn := (threaded_spec (closingLedger_threaded k) hu hn).1
  unique k n := threaded_unique (closingLedger_threaded k) n

/-- The records of the ledger with the names of their tokens. -/
def closingRecords : List (Kind × AssetName × Data) :=
  [(.client, runningClientToken.name, .client runningClient),
    (.connection, runningConnectionToken.name, .connection runningConnection),
    (.channel, runningOpenChannel.token.name, .channel runningOpenChannel),
    (.channel, triedChannel.token.name, .channel triedChannel)]

theorem closingLedger_record_iff {k : Kind} {n : AssetName} {data : Data} :
    sampleBridge.Record k closingLedger n data ↔ (k, n, data) ∈ closingRecords := by
  constructor
  · rintro ⟨u, hu, hheld, hdatum⟩
    obtain ⟨e, he, hp, rfl⟩ := listed_of_held hheld
    have hlisted : ∀ u ∈ closingLedger.utxos, ∀ e ∈ u.output.value, e.1 = sampleBridge.policy k →
        ∃ r ∈ closingRecords, r.1 = k ∧ r.2.1 = e.2.1 ∧
          u.output.datum = .InlineDatum r.2.2 := by
      cases k <;> decide +kernel
    obtain ⟨⟨_, _, data'⟩, hr, rfl, rfl, hdatum'⟩ := hlisted u hu e he hp
    rw [hdatum] at hdatum'
    injection hdatum' with heq
    rwa [heq]
  · intro hr
    simp only [closingRecords, List.mem_cons, Prod.mk.injEq, List.not_mem_nil, or_false] at hr
    rcases hr with ⟨rfl, rfl, rfl⟩ | ⟨rfl, rfl, rfl⟩ | ⟨rfl, rfl, rfl⟩ | ⟨rfl, rfl, rfl⟩
    · exact ⟨runningClientInput, by simp [closingLedger], by decide, rfl⟩
    · exact ⟨runningConnectionInput, by simp [closingLedger], by decide, rfl⟩
    · exact ⟨runningChannelInput, by simp [closingLedger], by decide, rfl⟩
    · exact ⟨runningInput 6 (runningChannelOutput triedChannel), by simp [closingLedger],
        by decide, rfl⟩

theorem closingLedger_synchronised : sampleBridge.Synchronised closingLedger closingHost := by
  -- the root of the sample is named, never computed
  have hroot : ∀ root, (runningHostDatum 5 2 root).state.ibc_state_root = root := fun _ => rfl
  refine ⟨closingEntries, by decide +kernel, ?_, (hroot (treeRoot closingEntries)).symm⟩
  intro key value
  simp only [Hashes.Holds, closingLedger_record_iff]
  constructor
  · intro h
    simp only [closingEntries, List.mem_append] at h
    rcases h with (((h | h) | h) | h) | h
    · exact .inl h
    · exact .inr ⟨.client, runningClientToken.name, .client runningClient, _,
        by simp [closingRecords], rfl, h⟩
    · exact .inr ⟨.connection, runningConnectionToken.name, .connection runningConnection, _,
        by simp [closingRecords], rfl, h⟩
    · exact .inr ⟨.channel, runningOpenChannel.token.name, .channel runningOpenChannel, _,
        by simp [closingRecords], rfl, h⟩
    · exact .inr ⟨.channel, triedChannel.token.name, .channel triedChannel, _,
        by simp [closingRecords], rfl, h⟩
  · rintro (h | ⟨k, n, data, entries, hrecord, hentries, h⟩)
    · simp only [closingEntries, List.mem_append]
      exact .inl (.inl (.inl (.inl h)))
    · simp only [closingRecords, List.mem_cons, Prod.mk.injEq, List.not_mem_nil,
        or_false] at hrecord
      simp only [closingEntries, List.mem_append]
      rcases hrecord with ⟨rfl, rfl, rfl⟩ | ⟨rfl, rfl, rfl⟩ | ⟨rfl, rfl, rfl⟩ | ⟨rfl, rfl, rfl⟩
      · cases hentries
        exact .inl (.inl (.inl (.inr h)))
      · cases hentries
        exact .inl (.inl (.inr h))
      · cases hentries
        exact .inl (.inr h)
      · cases hentries
        exact .inr h

/-- The counterparty's end of a channel as it stands in its store. -/
def endBytes (c : ChannelDatum) (channel_id : String) (state : ChannelState) : Bytes :=
  match channel_pb.marshal_for_channel (counterpartyChannel runningConnection.state c
    (utf8 channel_id) c.state.channel.version state) with
  | some (_, channel_bz) => channel_bz
  | none => []

def confirmOrder : SpendChannelRedeemer :=
  .ChanOpenConfirm (onlyEntryProof (channel_path (utf8 "transfer") (utf8 "channel-8"))
    (endBytes triedChannel "channel-1" .Open)
    0x3d7cf13ded6e7611f3c00f731956486f96e5ff1e8f9abd5025711b454ded70c2) (runningHeight 6)

def closeConfirmOrder : SpendChannelRedeemer :=
  .ChanCloseConfirm (onlyEntryProof (channel_path (utf8 "transfer") (utf8 "channel-7"))
    (endBytes runningOpenChannel "channel-0" .Closed)
    0x202adf4510110f0e2bc74ba43d9a8aad9b1d4c67f3e2536420e9c183efc2badf) (runningHeight 7)

/-- A channel of the sample is ready for an order if the order is due and its proof good. -/
theorem closingLedger_ready {order : SpendChannelRedeemer} {c : ChannelDatum}
    (hrecord : (.channel, c.token.name, .channel c) ∈ closingRecords)
    (hdue : ∃ channel_id proven,
      host_state_stt.channel_id_from_token_name c.token.name = some channel_id ∧
      order.completes = some (c.state.channel.state, proven) ∧
      endProven runningConnection.state runningClient.state c channel_id 1500 proven = some true) :
    Ready sampleBridge.toHashes closingLedger 1500 1600 c.token.name order runningRoute c
      runningConnection runningClient := by
  have hconnection : sampleBridge.Record .connection closingLedger runningConnectionToken.name
      (.connection runningConnection) := closingLedger_record_iff.mpr (by simp [closingRecords])
  have hclient : sampleBridge.Record .client closingLedger runningClientToken.name
      (.client runningClient) := closingLedger_record_iff.mpr (by simp [closingRecords])
  have hchannel : c = runningOpenChannel ∨ c = triedChannel := by
    simp only [closingRecords, List.mem_cons, Prod.mk.injEq, reduceCtorEq, false_and,
      Data.channel.injEq, List.not_mem_nil, or_false, false_or] at hrecord
    exact hrecord.imp (·.2.2) (·.2.2)
  refine ⟨closingLedger_record_iff.mpr hrecord, ?_,
    ⟨?_, ?_, runningConnection, hconnection, rfl, rfl⟩, hconnection, rfl, hclient, by decide, hdue⟩
  · rcases hchannel with rfl | rfl <;> rfl
  · rcases hchannel with rfl | rfl <;> decide
  · rcases hchannel with rfl | rfl <;> decide

/-- A channel that waits for the end of its handshake, one that is open and one whose counterparty
is closed, with all that the orders for them need, in a synchronised ledger: nothing that could
be put on it carries the orders out. -/
theorem ready_channels_stay_as_they_are :
    Threads sampleBridge.toHashes closingLedger closingHostInput closingHost ∧
      sampleBridge.Synchronised closingLedger closingHost ∧
      ∀ e ∈ [(triedChannel, confirmOrder), (runningOpenChannel, .ChanCloseInit),
          (runningOpenChannel, closeConfirmOrder)],
        Ready sampleBridge.toHashes closingLedger 1500 1600 e.1.token.name e.2 runningRoute e.1
          runningConnection runningClient ∧
        ¬ ∃ tx, sampleBridge.Accepted closingLedger tx ∧
          sampleBridge.orderFor e.1.token.name tx = some e.2 := by
  refine ⟨closingLedger_threads, closingLedger_synchronised, ?_⟩
  simp only [List.forall_mem_cons, List.not_mem_nil, false_implies, implies_true, and_true]
  refine ⟨⟨closingLedger_ready (by simp [closingRecords]) ?_, ?_⟩,
    ⟨closingLedger_ready (by simp [closingRecords]) ?_, ?_⟩,
    ⟨closingLedger_ready (by simp [closingRecords]) ?_, ?_⟩⟩
  · exact ⟨utf8 "channel-1", _, by decide, rfl, by decide +kernel⟩
  · exact never_completed closingLedger_threads
      (by simp [confirmOrder, SpendChannelRedeemer.completes])
  · exact ⟨utf8 "channel-0", _, by decide, rfl, rfl⟩
  · exact never_completed closingLedger_threads (by simp [SpendChannelRedeemer.completes])
  · exact ⟨utf8 "channel-0", _, by decide, rfl, by decide +kernel⟩
  · exact never_completed closingLedger_threads
      (by simp [closeConfirmOrder, SpendChannelRedeemer.completes])

theorem the_handshake_of_a_tried_channel_never_ends :
    ¬ ∃ tx, sampleBridge.Accepted closingLedger tx ∧
      sampleBridge.orderFor triedChannel.token.name tx = some confirmOrder := by
  have hready : Ready sampleBridge.toHashes closingLedger 1500 1600 triedChannel.token.name
      confirmOrder runningRoute triedChannel runningConnection runningClient :=
    closingLedger_ready (by simp [closingRecords])
      ⟨utf8 "channel-1", _, by decide, rfl, by decide +kernel⟩
  exact due_orders_are_never_carried_out closingLedger_threads hready

end Sample

end cardano_ibc
