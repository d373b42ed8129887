-- What each operation on a channel comes to: what its marker has seen of the transaction, and
-- the record it leaves behind.
import CardanoIbc.Validators.Specs

namespace cardano_ibc

open validator_utils

section Operations

variable [Builtins]

/-! ## What every operation reads -/

/-- The channel spent is the one input with the token. It goes on at its address, and its
connection and client are among the inputs referred to. -/
structure Reads (policies : Policies) (token : AuthToken) (tx : Transaction) (op : Operation)
    (input : Input) (connection_id : Bytes) (connection : ConnectionDatum)
    (client : ClientDatum) : Prop where
  only : (tx.inputs.filter fun i => auth.contain_auth_token i.output token) = [input]
  spent : input.output = op.spent_output
  datum : op.spent_output.datum = .InlineDatum (.channel op.datum)
  redeemer : get_first tx.redeemers (.Spend input.output_reference) =
    some (.spendChannelRedeemer op.redeemer)
  continued : find_unique_continuation_output op.spent_output tx.outputs op.datum.token =
    some op.updated_output
  updated : op.updated_output.datum = .InlineDatum (.channel op.updated_datum)
  valid_to : get_tx_valid_to tx.validity_range = some op.tx_valid_to
  channel_id : (auth.extract_token_sequence op.datum.token.name).map format_channel_identifier =
    some op.channel_id
  hops : op.datum.state.channel.connection_hops = [connection_id]
  referred : validate_referred_connection_and_client tx.reference_inputs op.datum.token.name
    policies.client_minting_policy_id policies.connection_minting_policy_id connection_id =
    some (connection, client)
  connection_eq : op.connection = connection.state
  client_eq : op.client = client.state

theorem readOperation_spec {policies : Policies} {token : AuthToken} {tx : Transaction}
    {op : Operation} (h : readOperation policies token tx = some op) :
    ∃ input connection_id connection client,
      Reads policies token tx op input connection_id connection client := by
  simp only [readOperation, extract_channel, bind_eq_some, exactlyOne_eq_some,
    get_inline_datum_eq_some, Data.asChannel_eq_some, Data.asSpendChannelRedeemer_eq_some,
    pure_eq_some] at h
  obtain ⟨⟨datum, redeemer, spent_output⟩, ⟨input, honly, _, hdatum, datum', rfl, _, hredeemer,
    redeemer', rfl, heq⟩, updated_output, hcontinued, _, hupdated, updated_datum, rfl,
    tx_valid_to, hvalid, sequence, hsequence, connection_id, hhops, ⟨connection, client⟩,
    hreferred, rfl⟩ := h
  simp only [Prod.mk.injEq] at heq
  obtain ⟨rfl, rfl, rfl⟩ := heq
  exact ⟨input, connection_id, connection, client, honly, rfl, hdatum, hredeemer, hcontinued,
    hupdated, hvalid, by rw [hsequence]; rfl, hhops, hreferred, rfl, rfl⟩

/-! ## The operations -/

structure AcksOpening (op : Operation) : Prop where
  ordered : ∃ version proof height, op.redeemer = .ChanOpenAck version proof height
  init : op.datum.state.channel.state = .Init
  identified : channel_identifier_validator
    op.updated_datum.state.channel.counterparty.channel_id = true
  effect : op.updated_datum = channel_datum.withChannel op.datum { op.datum.state.channel with
    state := .Open
    counterparty := { op.datum.state.channel.counterparty with
      channel_id := op.updated_datum.state.channel.counterparty.channel_id } }

structure Sends (policies : Policies) (tx : Transaction) (op : Operation) (packet : Packet)
    (commitment : Bytes) : Prop where
  ordered : op.redeemer = .SendPacket packet
  is_open : op.datum.state.channel.state = .Open
  outbound : isOutbound op packet = true
  next : packet.sequence = op.datum.state.next_sequence_send
  basic : cardano_ibc.packet.validate_basic packet = true
  committed : cardano_ibc.packet.commit_packet packet = some commitment
  callback : ∃ data, packetCallback policies op.datum.port_id tx =
    some (.OnSendPacket op.channel_id packet.data commitment data)
  room : channel_datum.packet_entry_count op.datum.state <
    channel_datum.max_packet_entries_per_channel
  effect : op.updated_datum = channel_datum.sent op.datum packet commitment

structure Receives (policies : Policies) (tx : Transaction) (op : Operation) (packet : Packet)
    (proof : MerkleProof) (proof_height : Height) (ack : Acknowledgement) : Prop where
  ordered : op.redeemer = .RecvPacket packet proof proof_height
  is_open : op.datum.state.channel.state = .Open
  proven : recv_packet.validate_recv_packet_proof op.connection op.client proof_height proof
    packet tx.redeemers policies.verify_proof_policy_id = some true
  basic : cardano_ibc.packet.validate_basic packet = true
  destination_port : packet.destination_port = op.datum.port_id
  destination_channel : packet.destination_channel = op.channel_id
  source_port : packet.source_port = op.datum.state.channel.counterparty.port_id
  source_channel : packet.source_channel = op.datum.state.channel.counterparty.channel_id
  no_receipt : has_key op.datum.state.packet_receipt packet.sequence = false
  no_acknowledgement : has_key op.datum.state.packet_acknowledgement packet.sequence = false
  no_height : height.is_zero packet.timeout_height = true
  in_time : op.tx_valid_to * 1000000 < packet.timeout_timestamp
  callback : ∃ data, packetCallback policies op.datum.port_id tx =
    some (.OnRecvPacket op.channel_id packet.data ack data)
  sequence : op.datum.state.channel.ordering = .Ordered →
    packet.sequence = op.datum.state.next_sequence_recv
  fresh_proof : height.compare proof_height op.datum.state.minimum_receive_proof_height ≠ .lt
  room : channel_datum.packet_entry_count op.datum.state +
    (if op.datum.state.channel.ordering = .Ordered then 1 else 2) ≤
    channel_datum.max_packet_entries_per_channel
  effect : channel_datum.received op.datum packet (cardano_ibc.acknowledgement.commit_acknowledgement
    (cardano_ibc.acknowledgement.marshal_json ack)) proof_height = some op.updated_datum

structure Acknowledges (policies : Policies) (tx : Transaction) (op : Operation)
    (packet : Packet) (ack : Bytes) (proof : MerkleProof) (proof_height : Height)
    (commitment : Bytes) : Prop where
  ordered : op.redeemer = .AcknowledgePacket packet ack proof proof_height
  is_open : op.datum.state.channel.state = .Open
  outbound : isOutbound op packet = true
  pending : get_first op.datum.state.packet_commitment packet.sequence = some commitment
  committed : cardano_ibc.packet.commit_packet packet = some commitment
  sequence : op.datum.state.channel.ordering = .Ordered →
    packet.sequence = op.datum.state.next_sequence_ack
  proven : acknowledge_packet.validate_acknowledge_packet_proof op.connection op.client
    proof_height proof packet ack tx.redeemers policies.verify_proof_policy_id = some true
  callback : ∃ parsed data, packetCallback policies op.datum.port_id tx =
    some (.OnAcknowledgementPacket op.channel_id packet.data parsed data) ∧
    cardano_ibc.acknowledgement.marshal_json parsed = ack
  effect : op.updated_datum = channel_datum.acknowledged op.datum packet

structure TimesOut (policies : Policies) (tx : Transaction) (op : Operation) (packet : Packet)
    (commitment : Bytes) : Prop where
  ordered : ∃ proof proof_height next_sequence_recv,
    op.redeemer = .TimeoutPacket packet proof proof_height next_sequence_recv
  is_open : op.datum.state.channel.state = .Open
  outbound : isOutbound op packet = true
  pending : get_first op.datum.state.packet_commitment packet.sequence = some commitment
  committed : cardano_ibc.packet.commit_packet packet = some commitment
  callback : ∃ data, packetCallback policies op.datum.port_id tx =
    some (.OnTimeoutPacket op.channel_id packet.data data)
  effect : op.updated_datum = channel_datum.timedOut op.datum packet

structure Prunes (policies : Policies) (tx : Transaction) (op : Operation) (sequence : Int)
    (proof : MerkleProof) (proof_height : Height) : Prop where
  ordered : op.redeemer = .PrunePacketHistory sequence proof proof_height
  is_open : op.datum.state.channel.state = .Open
  unordered : op.datum.state.channel.ordering = .Unordered
  receipt : has_key op.datum.state.packet_receipt sequence = true
  acknowledgement : has_key op.datum.state.packet_acknowledgement sequence = true
  above_minimum :
    height.compare proof_height op.datum.state.minimum_receive_proof_height ≠ .lt
  above_maximum :
    height.compare proof_height op.datum.state.maximum_receive_proof_height ≠ .lt
  proven : prune_packet_history.validate_source_commitment_absence op.connection op.client
    op.datum.state.channel.counterparty.port_id
    op.datum.state.channel.counterparty.channel_id sequence proof_height proof tx.redeemers
    policies.verify_proof_policy_id = some true
  effect : op.updated_datum = channel_datum.pruned op.datum sequence proof_height

/-- One of the operations that have a minting side. -/
inductive Performs (policies : Policies) (tx : Transaction) (op : Operation) : Prop
  | openAck (h : AcksOpening op)
  | send {packet : Packet} {commitment : Bytes} (h : Sends policies tx op packet commitment)
  | recv {packet : Packet} {proof : MerkleProof} {proof_height : Height}
      {ack : Acknowledgement} (h : Receives policies tx op packet proof proof_height ack)
  | acknowledge {packet : Packet} {ack : Bytes} {proof : MerkleProof} {proof_height : Height}
      {commitment : Bytes} (h : Acknowledges policies tx op packet ack proof proof_height commitment)
  | timeout {packet : Packet} {commitment : Bytes}
      (h : TimesOut policies tx op packet commitment)
  | prune {sequence : Int} {proof : MerkleProof} {proof_height : Height}
      (h : Prunes policies tx op sequence proof proof_height)

/-! ## The markers -/

variable {policies : Policies} {token : AuthToken} {policy : PolicyId} {tx : Transaction}

omit [Builtins] in
theorem token_of_keepsToken {op : Operation} (h : keepsToken op token = true) :
    token = op.datum.token := by
  simp only [keepsToken, Bool.and_eq_true, beq_iff_eq] at h
  exact h.1

theorem send_packet.mint_spec (h : send_packet.mint policies token policy tx = some true) :
    ∃ op packet commitment, readOperation policies token tx = some op ∧
      token = op.datum.token ∧ Sends policies tx op packet commitment := by
  simp only [send_packet.mint, send_packet.check, bind_eq_some, expect_eq_some] at h
  obtain ⟨-, -, op, hop, h⟩ := h
  split at h
  · rename_i packet horder
    simp only [bind_eq_some, expect_eq_some, beq_iff_eq] at h
    obtain ⟨-, hopen, -, -, -, -, _, -, commitment, hcommit, callback, hcallback, h⟩ := h
    split at h
    · simp only [bind_eq_some, expect_eq_some, pure_eq_some, Bool.and_eq_true, beq_iff_eq,
        channel_datum.validate_send_packet] at h
      obtain ⟨-, ⟨⟨rfl, rfl⟩, rfl⟩, ⟨⟨⟨hkeeps, hbasic⟩, hout, hnext⟩, -⟩, hroom, heffect⟩ := h
      exact ⟨op, packet, _, hop, token_of_keepsToken hkeeps, horder, hopen, hout, hnext, hbasic,
        hcommit, ⟨_, hcallback⟩, by simpa using hroom, heffect.symm⟩
    · cases h
  · cases h

theorem recv_packet.mint_spec (h : recv_packet.mint policies token policy tx = some true) :
    ∃ op packet proof proof_height ack, readOperation policies token tx = some op ∧
      token = op.datum.token ∧ Receives policies tx op packet proof proof_height ack := by
  simp only [recv_packet.mint, bind_eq_some, expect_eq_some] at h
  obtain ⟨-, -, op, hop, h⟩ := h
  split at h
  · rename_i packet proof proof_height horder
    simp only [bind_eq_some, expect_eq_some, beq_iff_eq] at h
    obtain ⟨-, hopen, -, -, -, -, valid, hproof, callback, hcallback, h⟩ := h
    split at h
    · rename_i ack data
      simp only [bind_eq_some, expect_eq_some, and_accepts, pure_eq_some, Bool.and_eq_true,
        beq_iff_eq, Bool.not_eq_eq_eq_not, Bool.not_true, decide_eq_true_eq,
        channel_datum.validate_recv_packet] at h
      obtain ⟨-, ⟨rfl, rfl⟩, ⟨⟨⟨⟨⟨⟨⟨⟨⟨⟨⟨hkeeps, hbasic⟩, hdp⟩, hdc⟩, hsp⟩, hsc⟩, rfl⟩, hreceipt⟩,
        hack⟩, hheight⟩, -⟩, htime⟩, expected, hexpected, ⟨⟨hsequence, hmin⟩, hroom⟩, rfl⟩ := h
      refine ⟨op, packet, proof, proof_height, ack, hop, token_of_keepsToken hkeeps, horder,
        hopen, hproof, hbasic, hdp, hdc, hsp, hsc, hreceipt, hack, hheight, htime,
        ⟨data, hcallback⟩, ?_, by simpa using hmin, by simpa using hroom, hexpected⟩
      intro hordered
      simpa [hordered] using hsequence
    · cases h
  · cases h

theorem acknowledge_packet.mint_spec
    (h : acknowledge_packet.mint policies token policy tx = some true) :
    ∃ op packet ack proof proof_height commitment, readOperation policies token tx = some op ∧
      token = op.datum.token ∧
      Acknowledges policies tx op packet ack proof proof_height commitment := by
  simp only [acknowledge_packet.mint, bind_eq_some, expect_eq_some] at h
  obtain ⟨-, -, op, hop, h⟩ := h
  split at h
  · rename_i packet ack proof proof_height horder
    simp only [bind_eq_some] at h
    obtain ⟨commitment, hpending, commitment', hcommit, valid, hproof, callback, hcallback, h⟩ := h
    split at h
    · rename_i parsed data
      simp only [bind_eq_some, expect_eq_some, pure_eq_some, Bool.and_eq_true, beq_iff_eq,
        Bool.or_eq_true, bne_iff_ne, channel_datum.validate_acknowledge_packet] at h
      obtain ⟨-, ⟨⟨rfl, rfl⟩, hparsed⟩, ⟨⟨⟨⟨⟨⟨⟨hkeeps, -⟩, -⟩, hopen⟩, hout⟩, rfl⟩, heffect⟩,
        rfl⟩, hsequence⟩ := h
      refine ⟨op, packet, ack, proof, proof_height, commitment, hop, token_of_keepsToken hkeeps,
        horder, hopen, hout, hpending, hcommit, ?_, hproof,
        ⟨parsed, data, hcallback, hparsed⟩, heffect.symm⟩
      exact fun hordered => hsequence.resolve_left fun hne => hne hordered
    · cases h
  · cases h

theorem timeout_packet.mint_spec
    (h : timeout_packet.mint policies token policy tx = some true) :
    ∃ op packet commitment, readOperation policies token tx = some op ∧
      token = op.datum.token ∧ TimesOut policies tx op packet commitment := by
  simp only [timeout_packet.mint, bind_eq_some, expect_eq_some] at h
  obtain ⟨-, -, op, hop, h⟩ := h
  split at h
  · rename_i packet proof proof_height next_sequence_recv horder
    simp only [bind_eq_some, expect_eq_some, beq_iff_eq] at h
    obtain ⟨-, hopen, -, -, _, -, commitment, hpending, h⟩ := h
    obtain ⟨valid, -, callback, hcallback, h⟩ := h
    split at h
    · rename_i data
      simp only [bind_eq_some, expect_eq_some, pure_eq_some, Bool.and_eq_true, beq_iff_eq,
        channel_datum.validate_timeout_packet] at h
      obtain ⟨-, ⟨rfl, rfl⟩, commitment', hcommit, ⟨⟨⟨⟨hkeeps, hout⟩, -⟩, heffect⟩, rfl⟩, -⟩ := h
      exact ⟨op, packet, commitment, hop, token_of_keepsToken hkeeps,
        ⟨proof, proof_height, next_sequence_recv, horder⟩, hopen, hout, hpending, hcommit,
        ⟨data, hcallback⟩, heffect.symm⟩
    · cases h
  · cases h

theorem prune_packet_history.mint_spec
    (h : prune_packet_history.mint policies token policy tx = some true) :
    ∃ op sequence proof proof_height, readOperation policies token tx = some op ∧
      token = op.datum.token ∧ Prunes policies tx op sequence proof proof_height := by
  simp only [prune_packet_history.mint, bind_eq_some, expect_eq_some] at h
  obtain ⟨-, -, op, hop, h⟩ := h
  split at h
  · rename_i sequence proof proof_height horder
    simp only [bind_eq_some, pure_eq_some, Bool.and_eq_true, beq_iff_eq, bne_iff_ne,
      channel_datum.validate_prune_packet_history] at h
    obtain ⟨valid, hproof, ⟨⟨⟨⟨⟨⟨⟨hkeeps, hopen⟩, hunordered⟩, -⟩, -⟩, hmin⟩, hmax⟩, rfl⟩,
      ⟨⟨⟨⟨-, hreceipt⟩, hack⟩, -⟩, -⟩, heffect⟩ := h
    exact ⟨op, sequence, proof, proof_height, hop, token_of_keepsToken hkeeps, horder, hopen,
      hunordered, hreceipt, hack, hmin, hmax, hproof, heffect.symm⟩
  · cases h

/-- This marker alone does not compare the token it runs for with the channel's own. -/
theorem chan_open_ack.mint_spec (h : chan_open_ack.mint policies token policy tx = some true) :
    ∃ op, readOperation policies token tx = some op ∧ AcksOpening op := by
  simp only [chan_open_ack.mint, bind_eq_some, expect_eq_some] at h
  obtain ⟨-, -, op, hop, h⟩ := h
  split at h
  · rename_i version proof proof_height horder
    simp only [bind_eq_some, expect_eq_some, and_accepts, pure_eq_some,
      channel_datum.validate_chan_open_ack, beq_iff_eq] at h
    obtain ⟨_, -, _, -, _, -, -, -, -, ⟨-, hinit, -, hid, heffect⟩, -⟩ := h
    exact ⟨op, hop, ⟨version, proof, proof_height, horder⟩, hinit, hid, heffect.symm⟩
  · cases h

end Operations

end cardano_ibc
