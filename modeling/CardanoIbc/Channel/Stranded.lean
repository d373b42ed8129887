-- What a timeout leaves behind on an ordered channel: the channel is closed, and a closed channel is
-- never spent again, so whatever else was in flight stays where it is.
import CardanoIbc.Channel.Closing
import CardanoIbc.Channel.WellFormed

namespace cardano_ibc

open validator_utils

theorem get_first_delete_first {α β : Type} [BEq α] [LawfulBEq α] {ps : List (α × β)} {k k' : α}
    (hne : k' ≠ k) : get_first (pairs.delete_first ps k) k' = get_first ps k' := by
  induction ps with
  | nil => rfl
  | cons p ps ih =>
    rw [pairs.delete_first]
    split
    · rename_i hk
      have hother : ¬ p.1 = k' := by
        rintro rfl
        exact hne (by simpa using hk)
      simp [get_first, hother]
    · by_cases hk' : p.1 = k'
      · simp [get_first, hk']
      · simpa [get_first, hk'] using ih

section Closed

variable [Builtins] {d : Deployment} {L L' : Ledger} {tx : Transaction} {u : Input}
  {c : ChannelDatum} {n : AssetName} {host : Input} {hd : HostStateDatum}

/-! ## A closed channel -/

/-- Every operation wants the channel open, or at the beginning of its handshake. -/
theorem Performs.not_closed {policies : Policies} {op : Operation} (h : Performs policies tx op) :
    op.datum.state.channel.state ≠ .Closed := by
  cases h with
  | openAck h => rw [h.init]; nofun
  | send h => rw [h.is_open]; nofun
  | recv h => rw [h.is_open]; nofun
  | acknowledge h => rw [h.is_open]; nofun
  | timeout h => rw [h.is_open]; nofun
  | prune h => rw [h.is_open]; nofun

/-- The output is a channel that is closed. -/
structure ClosedChannel (d : Hashes) (u : Input) (c : ChannelDatum) : Prop where
  at_script : u.output.address.payment_credential = .Script (d.script .channel)
  datum : u.output.datum = .InlineDatum (.channel c)
  held : auth.contain_auth_token u.output c.token = true
  closed : c.state.channel.state = .Closed

theorem ClosedChannel.unspent (hc : ClosedChannel d.toHashes u c) (h : d.Accepted L tx) :
    u ∉ tx.inputs := by
  intro hu
  have hnames : Kind.tokenIn .channel (.channel c) = some c.token := rfl
  obtain ⟨_, _, -, hstep⟩ := Deployment.object_spent h hu hc.at_script hc.datum hnames hc.held
  cases hstep with
  | channel _ performs => exact performs.not_closed hc.closed

/-- The ledger takes some transaction. -/
def Deployment.Steps (d : Deployment) (L L' : Ledger) : Prop :=
  ∃ tx, ∃ h : d.Accepted L tx, L' = L.apply tx h

/-- Whatever the ledger takes, a closed channel stays. -/
theorem ClosedChannel.stays (hc : ClosedChannel d.toHashes u c) (hu : u ∈ L.utxos)
    (hsteps : Relation.ReflTransGen d.Steps L L') : u ∈ L'.utxos := by
  induction hsteps with
  | refl => exact hu
  | tail _ step ih =>
    obtain ⟨tx, h, rfl⟩ := step
    exact Ledger.mem_apply.mpr (.inl ⟨ih, hc.unspent h⟩)

/-! ## A timeout on an ordered channel -/

theorem Threads.timeout_closes (t : Threads d.toHashes L host hd)
    (hrecord : d.Record .channel L n (.channel c))
    (hordered : c.state.channel.ordering = .Ordered) (h : d.Accepted L tx) {packet : Packet}
    {proof : MerkleProof} {proof_height : Height} {next_sequence_recv : Int}
    (htimeout : d.orderFor n tx =
      some (.TimeoutPacket packet proof proof_height next_sequence_recv)) :
    ∃ u ∈ (L.apply tx h).utxos, 0 < amount (d.policy .channel) n u ∧
      ClosedChannel d.toHashes u (channel_datum.timedOut c packet) := by
  obtain ⟨op, input, _, _, _, hredeemer, hspent, reads, performs⟩ := t.order_performed h htimeout
  obtain rfl : op.datum = c := by
    have hsame := t.record_unique hspent hrecord
    injection hsame
  have heffect : op.updated_datum = channel_datum.timedOut op.datum packet := by
    cases performs with
    | timeout htimes =>
      obtain ⟨_, _, _, hordered'⟩ := htimes.ordered
      rw [hredeemer] at hordered'
      cases hordered'
      exact htimes.effect
    | openAck hacks =>
      obtain ⟨_, _, _, hordered'⟩ := hacks.ordered
      rw [hredeemer] at hordered'
      cases hordered'
    | send hsends => exact absurd (hredeemer.symm.trans hsends.ordered) nofun
    | recv hrecv => exact absurd (hredeemer.symm.trans hrecv.ordered) nofun
    | acknowledge hack => exact absurd (hredeemer.symm.trans hack.ordered) nofun
    | prune hprune => exact absurd (hredeemer.symm.trans hprune.ordered) nofun
  have hnames : op.datum.token = { policy_id := d.policy .channel, name := n } := by
    have := t.record_names hrecord
    simpa [Kind.tokenIn] using this
  -- the channel goes on at the address of the input with its token
  have hscript : op.spent_output.address.payment_credential = .Script (d.script .channel) := by
    have hmem : input ∈ tx.inputs.filter fun i => auth.contain_auth_token i.output op.datum.token := by
      rw [reads.only]
      exact List.mem_singleton_self input
    obtain ⟨hin, hcontains⟩ := List.mem_filter.mp hmem
    rw [auth.contain_auth_token_iff, hnames] at hcontains
    have hpositive : 0 < amount (d.policy .channel) n input := by
      rw [amount, hcontains]
      exact Int.one_pos
    obtain ⟨_, _, object⟩ := t.objects .channel input (h.inputs_live input hin) n hpositive
    rw [← reads.spent]
    exact object.at_script
  obtain ⟨hout, haddress, hone⟩ := find_unique_continuation_output_spec reads.continued
  obtain ⟨u, hu, hsame⟩ := Transaction.exists_created hout
  refine ⟨u, Ledger.mem_apply.mpr (.inr hu), ?_, ?_, ?_, ?_, ?_⟩
  · rw [hnames] at hone
    rw [amount, hsame, hone]
    exact Int.one_pos
  · rw [hsame, haddress, hscript]
  · rw [hsame, reads.updated, heffect]
  · rw [auth.contain_auth_token_iff, hsame]
    exact hone
  · simp [channel_datum.timedOut, hordered]

/-- A timeout on an ordered channel closes it with everything else that is in flight, and nothing
the ledger ever takes spends the channel again. -/
theorem an_ordered_timeout_strands_the_other_packets (t : Threads d.toHashes L host hd)
    (hrecord : d.Record .channel L n (.channel c))
    (hordered : c.state.channel.ordering = .Ordered) (h : d.Accepted L tx) {packet : Packet}
    {proof : MerkleProof} {proof_height : Height} {next_sequence_recv : Int}
    (htimeout : d.orderFor n tx =
      some (.TimeoutPacket packet proof proof_height next_sequence_recv))
    {sequence : Int} {commitment : Bytes}
    (hother : get_first c.state.packet_commitment sequence = some commitment)
    (hne : sequence ≠ packet.sequence) :
    ∃ u ∈ (L.apply tx h).utxos, 0 < amount (d.policy .channel) n u ∧
      ∃ closed, u.output.datum = .InlineDatum (.channel closed) ∧
        closed.state.channel.state = .Closed ∧
        get_first closed.state.packet_commitment sequence = some commitment ∧
        ∀ L', Relation.ReflTransGen d.Steps (L.apply tx h) L' →
          u ∈ L'.utxos ∧ ∀ tx, d.Accepted L' tx → u ∉ tx.inputs := by
  obtain ⟨u, hu, hheld, hc⟩ := t.timeout_closes hrecord hordered h htimeout
  refine ⟨u, hu, hheld, channel_datum.timedOut c packet, hc.datum, hc.closed, ?_, ?_⟩
  · rw [← hother]
    exact get_first_delete_first hne
  · intro L' hsteps
    exact ⟨hc.stays hu hsteps, fun tx h => hc.unspent h⟩

/-- The packet's time is over at the height of a proof, and the proof shows that the counterparty
expects the packet or one before it next. -/
def overdue (connection : ConnectionEnd) (client : ClientDatumState) (packet : Packet)
    (proof : MerkleProof) (proof_height : Height) (next_sequence_recv valid_from : Int) :
    Option Bool := do
  let proof_timestamp ← client_state.get_timestamp_at_height client.consensus_states proof_height
  let params ← membershipAt connection client proof_height proof
    (next_sequence_recv_path packet.destination_port packet.destination_channel)
    (← from_int_big_endian next_sequence_recv 8)
  return packet.timeout_timestamp != 0 && proof_timestamp ≥ packet.timeout_timestamp &&
    next_sequence_recv ≤ packet.sequence &&
    (← client_state.verify_membership params (valid_from * 1000000)
      (client_datum.processed_height_from_time (valid_from * 1000000)))

end Closed

/-! ### Two packets, one of which times out -/

section Sample

/-- The digests of the other samples, and the one that the token of this port is named by. -/
abbrev orderedBuiltins : Builtins :=
  { runningBuiltins with
    blake2b_256 m :=
      if m = utf8 "cardano-ibc/port-token/v1" ++ [0] ++ utf8 "mock" then
        bigEndian 32 0x1fa5962b824eab9f759c65f1a933c3a70cb9946f1173c626ff79b8eb6dfdeafb
      else sha256.digest m }

local instance strandedBuiltins : Builtins := orderedBuiltins

def pingPacket (sequence : Int) : Packet :=
  { sequence
    source_port := utf8 "mock"
    source_channel := utf8 "channel-0"
    destination_port := utf8 "mock"
    destination_channel := utf8 "channel-7"
    data := utf8 "ping"
    timeout_height := height.zero_height
    timeout_timestamp := 900000000 }

def pingCommitment : Bytes :=
  bigEndian 32 0x59124be5b95546eefcba3d174a3ba8d7dbd48d15d829050bcce1454b08d34f59

theorem commit_pingPacket (sequence : Int) :
    cardano_ibc.packet.commit_packet (pingPacket sequence) = some pingCommitment :=
  show cardano_ibc.packet.commit_packet (pingPacket 1) = some pingCommitment by decide +kernel

/-- An ordered channel after it was opened on this side. -/
def orderedOpening : ChannelDatum :=
  { state :=
      { channel :=
          { state := .Init
            ordering := .Ordered
            counterparty := { port_id := utf8 "mock", channel_id := [] }
            connection_hops := [utf8 "connection-0"]
            version := utf8 "mock-1" }
        next_sequence_send := 1
        next_sequence_recv := 1
        next_sequence_ack := 1
        packet_commitment := []
        packet_receipt := []
        packet_acknowledgement := []
        minimum_receive_proof_height := height.zero_height
        maximum_receive_proof_height := height.zero_height }
    port_id := utf8 "mock"
    token := runningChannelToken "0" }

def orderedOpen : ChannelDatum :=
  channel_datum.withChannel orderedOpening
    { orderedOpening.state.channel with
      state := .Open
      counterparty := { port_id := utf8 "mock", channel_id := utf8 "channel-7" } }

/-- Two packets are sent over it. -/
def orderedChannel : ChannelDatum :=
  channel_datum.sent (channel_datum.sent orderedOpen (pingPacket 1) pingCommitment) (pingPacket 2)
    pingCommitment

theorem orderedChannel_reachable : ChannelReachable orderedChannel := by
  have hsend : ∀ {c : ChannelDatum} {sequence : Int}, c.state.channel.state = .Open →
      Outbound c (pingPacket sequence) → sequence = c.state.next_sequence_send →
      channel_datum.packet_entry_count c.state < channel_datum.max_packet_entries_per_channel →
      Transition c (channel_datum.sent c (pingPacket sequence) pingCommitment) := by
    intro c sequence hopen houtbound hnext hcount
    exact .send hopen houtbound hnext (commit_pingPacket sequence)
      (channel_datum.validate_send_packet_iff.mpr ⟨hcount, rfl⟩)
  have hopened : ChannelReachable orderedOpen := by
    refine .step (c := orderedOpening) (.opened ?_) (.openAck (by decide))
    exact ⟨by decide, by decide, by decide, .inl ⟨rfl, rfl⟩⟩
  exact (hopened.step (hsend rfl ⟨rfl, by decide, rfl, rfl⟩ rfl (by decide))).step
    (hsend rfl ⟨rfl, by decide, rfl, rfl⟩ rfl (by decide))

def orderedPort : ModuleRegistration :=
  { module_script_hash := sampleHash 20
    port_token :=
      { policy_id := sampleBridge.mint_port
        name := bigEndian 32 0x1fa5962b824eab9f759c65f1a933c3a70cb9946f1173c626ff79b8eb6dfdeafb }
    module_token := { policy_id := sampleHash 21, name := utf8 "ibc_module" } }

/-- The counterparty's store as the client knows it says that packet 1 is expected next. -/
def orderedClient : ClientDatum :=
  { state :=
      { client_state := { firstClientState with latest_height := runningHeight 7 }
        consensus_states := [(runningHeight 7, runningConsensus
          0xb58019c0f3de99b5cf1bb147bc1d26363dc980b9bdef2ad2f7dbd6e917597a2e)]
        processed_times := [(runningHeight 7, 1500000000)]
        processed_heights := [(runningHeight 7, 0)] }
    token := runningClientToken }

def orderedHostDatum (version : Int) (root : Nat) : HostStateDatum :=
  { sampleHostDatum with
    state :=
      { version
        ibc_state_root := bigEndian 32 root
        next_client_sequence := 1
        next_connection_sequence := 1
        next_channel_sequence := 1
        bound_port := [(utf8 "mock", orderedPort)]
        last_update_time := 0 } }

def orderedHost : HostStateDatum :=
  orderedHostDatum 6 0xc0bd05651ff5754c60218471c3d71ab14df4325f44766d30e20a3b3a9a8c2da8

def orderedHostInput : Input := runningInput 0 (sampleHostOutput orderedHost)

def orderedModule : Input :=
  runningInput 2
    { address := atScript orderedPort.module_script_hash
      value := [lovelace 2000000, (orderedPort.port_token.policy_id, orderedPort.port_token.name, 1),
        (orderedPort.module_token.policy_id, orderedPort.module_token.name, 1)]
      datum := .InlineDatum (.other []) }

def orderedClientInput : Input :=
  runningInput 3 (runningObject .client runningClientToken (.client orderedClient))

def orderedChannelInput : Input := runningInput 5 (runningChannelOutput orderedChannel)

def orderedLedger : Ledger where
  utxos := [orderedHostInput, sampleWallet, orderedModule, orderedClientInput,
    runningConnectionInput, orderedChannelInput]
  past := [List.replicate 32 90, List.replicate 32 91]
  nodup := by decide
  created := by decide
  nonneg := by decide

theorem orderedLedger_threaded (k : Kind) :
    sampleBridge.threaded orderedLedger orderedHost.state k = true := by
  cases k <;> decide +kernel

theorem orderedLedger_threads :
    Threads sampleBridge.toHashes orderedLedger orderedHostInput orderedHost where
  nonce_spent := by decide
  nonce_past := by decide
  host_live := by decide
  host_nft := by decide
  host_supply := by decide
  host_script := rfl
  host_datum := rfl
  counted k := by cases k <;> decide
  objects k u hu n hn := (threaded_spec (orderedLedger_threaded k) hu hn).1
  unique k n := threaded_unique (orderedLedger_threaded k) n

theorem orderedChannel_recorded : sampleBridge.Record .channel orderedLedger
    orderedChannel.token.name (.channel orderedChannel) :=
  ⟨orderedChannelInput, by simp [orderedLedger], by decide, rfl⟩

/-- The proof that packet 1 is expected next. -/
def expectedProof : MerkleProof :=
  onlyEntryProof (next_sequence_recv_path (utf8 "mock") (utf8 "channel-7")) [0, 0, 0, 0, 0, 0, 0, 1]
    0xd5c8bd20f85a64b39421e3b0f64362c61a5421b55d02c6a71b9c5edb588581cd

def timeoutOrder : SpendChannelRedeemer :=
  .TimeoutPacket (pingPacket 1) expectedProof (runningHeight 7) 1

def timeoutHostOrder : HostStateRedeemer :=
  .HandlePacket
    (siblingsFrom 61 [0x28578ebfb358677edb587c0fcb6e213d6a856ba9f3af371abfd3a054df0f69df,
      0x476a35b7bdecf95698f13bdca5acf2fbd35b24beb8820e53e933e30566dc34eb,
      0xd9692187b9cda8262b0509ffd6d7d7ffa7b2a7824ffb9be66f53557bf2e4ce7a])
    [] [] []
    (siblingsFrom 61 [0x874826c440bc428c30a64a1d8e7125731f61ec192a53961f7db6bd38f50511be,
      0x680b4cc9f007c31b4af1c6aacc3e79e43bcd60f0ca5faa197572df2502d0a336,
      0x145828670185cf3e692e2738b6f36a621acc3cb4a3b11c0ecaa6b236cfb1aa57])
    [] []

def timeoutParams : Option VerifyMembershipParams :=
  membershipAt runningConnection.state orderedClient.state (runningHeight 7) expectedProof
    (next_sequence_recv_path (utf8 "mock") (utf8 "channel-7")) [0, 0, 0, 0, 0, 0, 0, 1]

/-- The first packet times out. -/
def timeoutTx : Transaction :=
  { inputs := [orderedHostInput, orderedChannelInput, orderedModule, sampleWallet]
    reference_inputs := [runningConnectionInput, orderedClientInput]
    outputs := [sampleHostOutput (orderedHostDatum 7
        0xd2a6da531d23f8448b5e52dc2539a90196fc3333fadd725e47a179c53031e997),
      runningChannelOutput (channel_datum.timedOut orderedChannel (pingPacket 1)),
      orderedModule.output,
      { sampleWallet.output with
        value := [lovelace 9800000, (sampleBridge.timeout_packet, [], 1),
          (sampleBridge.verify_proof, [], 1)] }]
    fee := 200000
    mint := [(sampleBridge.timeout_packet, [], 1), (sampleBridge.verify_proof, [], 1)]
    validity_range := runningValidity
    extra_signatories := []
    redeemers := [(.Spend orderedHostInput.output_reference, .hostStateRedeemer timeoutHostOrder),
      (.Spend orderedChannelInput.output_reference, .spendChannelRedeemer timeoutOrder),
      (.Spend orderedModule.output_reference,
        .ibcModule (.Callback (.OnTimeoutPacket (utf8 "channel-0") (utf8 "ping")
          .OtherModuleData))),
      (.Mint sampleBridge.timeout_packet, .authToken orderedChannel.token)] ++
      timeoutParams.toList.map fun params =>
        (.Mint sampleBridge.verify_proof, .verifyProof (.VerifyMembership params))
    datums := []
    id := List.replicate 32 95 }

theorem timeoutTx_accepted : sampleBridge.Accepted orderedLedger timeoutTx :=
  Ledger.accepts_iff.mp (by decide +kernel)

theorem timeoutTx_ordered :
    sampleBridge.orderFor orderedChannel.token.name timeoutTx = some timeoutOrder := by decide

/-- The second packet stays where it is. -/
theorem the_second_packet_is_stranded :
    ∃ u ∈ (orderedLedger.apply timeoutTx timeoutTx_accepted).utxos,
      0 < amount (sampleBridge.policy .channel) orderedChannel.token.name u ∧
      ∃ closed, u.output.datum = .InlineDatum (.channel closed) ∧
        closed.state.channel.state = .Closed ∧
        get_first closed.state.packet_commitment 2 = some pingCommitment ∧
        ∀ L', Relation.ReflTransGen sampleBridge.Steps
            (orderedLedger.apply timeoutTx timeoutTx_accepted) L' →
          u ∈ L'.utxos ∧ ∀ tx, sampleBridge.Accepted L' tx → u ∉ tx.inputs :=
  an_ordered_timeout_strands_the_other_packets orderedLedger_threads orderedChannel_recorded rfl
    timeoutTx_accepted timeoutTx_ordered (by decide) (by decide)

/-- Both packets are committed to, overdue and not received. The first one times out, and whatever
the ledger takes from then on, no transaction spends the channel for the second. -/
theorem the_second_packet_never_times_out :
    ChannelReachable orderedChannel ∧
      Threads sampleBridge.toHashes orderedLedger orderedHostInput orderedHost ∧
      sampleBridge.Record .channel orderedLedger orderedChannel.token.name
        (.channel orderedChannel) ∧
      orderedChannel.state.channel.ordering = .Ordered ∧
      (∀ sequence ∈ ([1, 2] : List Int), Pending orderedChannel (pingPacket sequence) ∧
        overdue runningConnection.state orderedClient.state (pingPacket sequence) expectedProof
          (runningHeight 7) 1 1500 = some true) ∧
      sampleBridge.orderFor orderedChannel.token.name timeoutTx = some timeoutOrder ∧
      ∃ h : sampleBridge.Accepted orderedLedger timeoutTx,
        ∃ u ∈ (orderedLedger.apply timeoutTx h).utxos,
          u.output.datum =
            .InlineDatum (.channel (channel_datum.timedOut orderedChannel (pingPacket 1))) ∧
          ∀ L' tx, Relation.ReflTransGen sampleBridge.Steps (orderedLedger.apply timeoutTx h) L' →
            sampleBridge.Accepted L' tx → u ∈ L'.utxos ∧ u ∉ tx.inputs := by
  refine ⟨orderedChannel_reachable, orderedLedger_threads, orderedChannel_recorded, rfl, ?_,
    timeoutTx_ordered, timeoutTx_accepted, ?_⟩
  · have hpending : ∀ sequence ∈ ([1, 2] : List Int),
        Pending orderedChannel (pingPacket sequence) := by
      intro sequence hsequence
      have hid : orderedChannel.channelId = some (utf8 "channel-0") := by decide
      refine ⟨⟨rfl, hid, rfl, rfl⟩, pingCommitment, ?_, commit_pingPacket sequence⟩
      simp only [List.mem_cons, List.not_mem_nil, or_false] at hsequence
      rcases hsequence with rfl | rfl <;> decide
    have hoverdue : ∀ sequence ∈ ([1, 2] : List Int),
        overdue runningConnection.state orderedClient.state (pingPacket sequence) expectedProof
          (runningHeight 7) 1 1500 = some true := by
      decide +kernel
    exact fun sequence hs => ⟨hpending sequence hs, hoverdue sequence hs⟩
  · obtain ⟨u, hu, -, hc⟩ := orderedLedger_threads.timeout_closes orderedChannel_recorded rfl
      timeoutTx_accepted timeoutTx_ordered
    exact ⟨u, hu, hc.datum, fun L' tx hsteps h => ⟨hc.stays hu hsteps, hc.unspent h⟩⟩

end Sample

end cardano_ibc
