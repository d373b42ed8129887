-- A channel on its own: what channel_datum.ak lets each operation make of its record, which records
-- can be reached, which sequences their packets have under each ordering, how many entries there
-- are, and what of a record never changes or only grows.
import CardanoIbc.Validators.Specs

namespace cardano_ibc

/-! ## The steps of a record -/

section Steps

variable [Builtins]

omit [Builtins] in
/-- The id in the name of a channel's token. -/
def ChannelDatum.channelId (c : ChannelDatum) : Option Bytes :=
  (auth.extract_token_sequence c.token.name).map format_channel_identifier

omit [Builtins] in
/-- The packet goes from the channel to its counterparty. -/
structure Outbound (c : ChannelDatum) (packet : Packet) : Prop where
  source_port : packet.source_port = c.port_id
  source_channel : c.channelId = some packet.source_channel
  destination_port : packet.destination_port = c.state.channel.counterparty.port_id
  destination_channel : packet.destination_channel = c.state.channel.counterparty.channel_id

/-- The packet was sent and is committed to. -/
structure Pending (c : ChannelDatum) (packet : Packet) : Prop where
  outbound : Outbound c packet
  committed : ∃ commitment, get_first c.state.packet_commitment packet.sequence = some commitment ∧
    cardano_ibc.packet.commit_packet packet = some commitment

/-- The steps that take entries away. What the counterparty has to have done is proven beside the
record, and is not asked here. -/
inductive Settles (c c' : ChannelDatum) : Prop
  | acknowledge {packet : Packet} (is_open : c.state.channel.state = .Open)
      (pending : Pending c packet)
      (sequence : c.state.channel.ordering = .Ordered →
        packet.sequence = c.state.next_sequence_ack)
      (valid : channel_datum.validate_acknowledge_packet c c' packet = true)
  | timeout {packet : Packet} (is_open : c.state.channel.state = .Open)
      (pending : Pending c packet)
      (valid : channel_datum.validate_timeout_packet c c' packet = true)
  | prune {sequence : Int} {proof_height : Height} (is_open : c.state.channel.state = .Open)
      (valid : channel_datum.validate_prune_packet_history c c' sequence proof_height = true)

/-- Both ways of closing make the same of the record. -/
inductive Transition (c c' : ChannelDatum) : Prop
  | openAck (valid : channel_datum.validate_chan_open_ack c c' = some true)
  | openConfirm (valid : channel_datum.validate_chan_open_confirm c c' = some true)
  | close (not_closed : c.state.channel.state ≠ .Closed)
      (valid : channel_datum.validate_chan_close_init c c' = true)
  | send {packet : Packet} {commitment : Bytes} (is_open : c.state.channel.state = .Open)
      (outbound : Outbound c packet) (next : packet.sequence = c.state.next_sequence_send)
      (committed : cardano_ibc.packet.commit_packet packet = some commitment)
      (valid : channel_datum.validate_send_packet c c' packet commitment = true)
  | recv {packet : Packet} {ack : Bytes} {proof_height : Height}
      (is_open : c.state.channel.state = .Open)
      (no_receipt : has_key c.state.packet_receipt packet.sequence = false)
      (no_acknowledgement : has_key c.state.packet_acknowledgement packet.sequence = false)
      (valid : channel_datum.validate_recv_packet c c' packet ack proof_height = some true)
  | settle (settles : Settles c c')

/-- The records a channel can come to. -/
inductive ChannelReachable : ChannelDatum → Prop
  | opened {c : ChannelDatum} (opens : Opens c) : ChannelReachable c
  | step {c c' : ChannelDatum} (before : ChannelReachable c) (move : Transition c c') : ChannelReachable c'

end Steps

/-! ## What each step makes of the record -/

namespace channel_datum

theorem validate_chan_open_ack_spec {c c' : ChannelDatum}
    (h : validate_chan_open_ack c c' = some true) :
    c.state.channel.state = .Init ∧ ∃ id, c' = withChannel c { c.state.channel with
      state := .Open
      counterparty := { c.state.channel.counterparty with channel_id := id } } := by
  simp only [validate_chan_open_ack, bind_eq_some, expect_eq_some, pure_eq_some, beq_iff_eq] at h
  obtain ⟨-, hinit, -, -, heffect⟩ := h
  exact ⟨hinit, _, heffect.symm⟩

theorem validate_chan_open_confirm_spec {c c' : ChannelDatum}
    (h : validate_chan_open_confirm c c' = some true) :
    c.state.channel.state = .TryOpen ∧
      c' = withChannel c { c.state.channel with state := .Open } := by
  simp only [validate_chan_open_confirm, bind_eq_some, expect_eq_some, pure_eq_some,
    beq_iff_eq] at h
  obtain ⟨-, htry, heffect⟩ := h
  exact ⟨htry, heffect.symm⟩

theorem validate_chan_close_init_spec {c c' : ChannelDatum}
    (h : validate_chan_close_init c c' = true) :
    c' = withChannel c { c.state.channel with state := .Closed } := by
  rw [validate_chan_close_init, beq_iff_eq] at h
  exact h.symm

theorem validate_send_packet_iff {c c' : ChannelDatum} {packet : Packet} {commitment : Bytes} :
    validate_send_packet c c' packet commitment = true ↔
      packet_entry_count c.state < max_packet_entries_per_channel ∧
        c' = sent c packet commitment := by
  simp only [validate_send_packet, Bool.and_eq_true, decide_eq_true_eq, beq_iff_eq]
  exact and_congr_right fun _ => eq_comm

/-- What receiving asks of the record and the proof's height. -/
structure RecvValid (c c' : ChannelDatum) (packet : Packet) (ack : Bytes) (proof_height : Height) :
    Prop where
  sequence : c.state.channel.ordering = .Ordered → packet.sequence = c.state.next_sequence_recv
  fresh_proof : height.compare proof_height c.state.minimum_receive_proof_height ≠ .lt
  room : packet_entry_count c.state + (if c.state.channel.ordering = .Ordered then 1 else 2) ≤
    max_packet_entries_per_channel
  effect : received c packet ack proof_height = some c'

theorem validate_recv_packet_iff {c c' : ChannelDatum} {packet : Packet} {ack : Bytes}
    {proof_height : Height} :
    validate_recv_packet c c' packet ack proof_height = some true ↔
      RecvValid c c' packet ack proof_height := by
  simp only [validate_recv_packet, bind_eq_some, pure_eq_some, Bool.and_eq_true, beq_iff_eq,
    bne_iff_ne, decide_eq_true_eq]
  constructor
  · rintro ⟨expected, hexpected, ⟨⟨hsequence, hmin⟩, hroom⟩, rfl⟩
    refine ⟨fun hordered => ?_, hmin, hroom, hexpected⟩
    simpa [hordered] using hsequence
  · rintro ⟨hsequence, hmin, hroom, heffect⟩
    refine ⟨c', heffect, ⟨⟨?_, hmin⟩, hroom⟩, rfl⟩
    split
    · rename_i hordered
      simpa using hsequence hordered
    · rfl

theorem validate_acknowledge_packet_iff {c c' : ChannelDatum} {packet : Packet} :
    validate_acknowledge_packet c c' packet = true ↔ c' = acknowledged c packet := by
  rw [validate_acknowledge_packet, beq_iff_eq, eq_comm]

theorem validate_timeout_packet_iff {c c' : ChannelDatum} {packet : Packet} :
    validate_timeout_packet c c' packet = true ↔ c' = timedOut c packet := by
  rw [validate_timeout_packet, beq_iff_eq, eq_comm]

/-- What pruning asks of the record and the proof's height. -/
structure PruneValid (c c' : ChannelDatum) (sequence : Int) (proof_height : Height) : Prop where
  unordered : c.state.channel.ordering = .Unordered
  receipt : has_key c.state.packet_receipt sequence = true
  acknowledgement : has_key c.state.packet_acknowledgement sequence = true
  above_minimum : height.compare proof_height c.state.minimum_receive_proof_height ≠ .lt
  above_maximum : height.compare proof_height c.state.maximum_receive_proof_height ≠ .lt
  effect : c' = pruned c sequence proof_height

theorem validate_prune_packet_history_iff {c c' : ChannelDatum} {sequence : Int}
    {proof_height : Height} :
    validate_prune_packet_history c c' sequence proof_height = true ↔
      PruneValid c c' sequence proof_height := by
  simp only [validate_prune_packet_history, Bool.and_eq_true, beq_iff_eq, bne_iff_ne]
  constructor
  · rintro ⟨⟨⟨⟨⟨hordering, hreceipt⟩, hack⟩, hmin⟩, hmax⟩, heffect⟩
    exact ⟨hordering, hreceipt, hack, hmin, hmax, heffect.symm⟩
  · rintro ⟨hordering, hreceipt, hack, hmin, hmax, heffect⟩
    exact ⟨⟨⟨⟨⟨hordering, hreceipt⟩, hack⟩, hmin⟩, hmax⟩, heffect.symm⟩

end channel_datum

/-! ## The invariant of one record -/

/-- The keys of a list of packet entries. -/
abbrev sequences (entries : List (Int × Bytes)) : List Int := entries.map Prod.fst

/-- The packets on an unordered channel: what is received is acknowledged, and the two sequences
of an ordered one stand still. -/
structure UnorderedPackets (s : ChannelDatumState) : Prop where
  answered : ∀ k, k ∈ sequences s.packet_receipt ↔ k ∈ sequences s.packet_acknowledgement
  recv : s.next_sequence_recv = 1
  ack : s.next_sequence_ack = 1

/-- The packets on an ordered channel: all before the next one are received, and all that are
committed to are still to be acknowledged. -/
structure OrderedPackets (s : ChannelDatumState) : Prop where
  no_receipts : s.packet_receipt = []
  answered : ∀ k, k ∈ sequences s.packet_acknowledgement ↔ 1 ≤ k ∧ k < s.next_sequence_recv
  pending : ∀ k ∈ sequences s.packet_commitment, s.next_sequence_ack ≤ k

structure WellFormed (s : ChannelDatumState) : Prop where
  awaits : s.channel.state = .Init → s.channel.counterparty.channel_id = []
  begun : 1 ≤ s.next_sequence_recv ∧ 1 ≤ s.next_sequence_ack ∧
    s.next_sequence_ack ≤ s.next_sequence_send
  ordering : s.channel.ordering = .Ordered ∨ s.channel.ordering = .Unordered
  commitments_ascend : (sequences s.packet_commitment).Pairwise (· < ·)
  commitments_sent : ∀ k ∈ sequences s.packet_commitment, 1 ≤ k ∧ k < s.next_sequence_send
  acknowledgements_ascend : (sequences s.packet_acknowledgement).Pairwise (· < ·)
  receipts_distinct : (sequences s.packet_receipt).Nodup
  unordered : s.channel.ordering = .Unordered → UnorderedPackets s
  ordered : s.channel.ordering = .Ordered → OrderedPackets s
  bounded : channel_datum.packet_entry_count s ≤ channel_datum.max_packet_entries_per_channel

theorem nodup_of_ascending {ks : List Int} (h : ks.Pairwise (· < ·)) : ks.Nodup :=
  h.imp fun hlt => Int.ne_of_lt hlt

/-- A channel is well formed when it is created. -/
theorem Opens.wellFormed {c : ChannelDatum} (h : Opens c) : WellFormed c.state := by
  have hfresh := h.fresh
  simp only [channel_datum.isFresh, Bool.and_eq_true, beq_iff_eq, List.isEmpty_iff] at hfresh
  obtain ⟨⟨⟨⟨⟨hsend, hrecv⟩, hack⟩, -⟩, -⟩, ⟨hcommitment, hreceipt⟩, hacknowledgement⟩ := hfresh
  have hbasic := h.basic
  simp only [channel.validate_basic, bind_eq_some, pure_eq_some, Bool.and_eq_true,
    Bool.or_eq_true, beq_iff_eq] at hbasic
  obtain ⟨_, -, ⟨hordering, -⟩, -⟩ := hbasic
  refine ⟨?_, by omega, hordering, ?_, ?_, ?_, ?_, fun _ => ⟨?_, hrecv, hack⟩,
    fun _ => ⟨hreceipt, ?_, ?_⟩, ?_⟩
  · intro hinit
    rcases h.begun with ⟨-, hempty⟩ | ⟨htry, -⟩
    · exact hempty
    · rw [htry] at hinit
      cases hinit
  · simp [hcommitment]
  · simp [hcommitment]
  · simp [hacknowledgement]
  · simp [hreceipt]
  · simp [hreceipt, hacknowledgement]
  · intro k
    simp only [hacknowledgement, List.map_nil, List.not_mem_nil, false_iff]
    omega
  · simp [hcommitment]
  · simp [channel_datum.packet_entry_count, hcommitment, hreceipt, hacknowledgement]

/-! ## What each step keeps -/

section Invariants

variable {c c' : ChannelDatum}

/-- Another channel end with the same ordering, that does not wait for an answer any more. -/
theorem WellFormed.with_channel {ch : Channel} (hw : WellFormed c.state)
    (hordering : ch.ordering = c.state.channel.ordering) (hinit : ch.state ≠ .Init) :
    WellFormed (channel_datum.withChannel c ch).state := by
  refine ⟨fun h => absurd h hinit, hw.begun, ?_, hw.commitments_ascend, hw.commitments_sent,
    hw.acknowledgements_ascend, hw.receipts_distinct, ?_, ?_, hw.bounded⟩
  · show ch.ordering = .Ordered ∨ ch.ordering = .Unordered
    rw [hordering]
    exact hw.ordering
  · intro ho
    have hpackets := hw.unordered (hordering.symm.trans ho)
    exact ⟨hpackets.answered, hpackets.recv, hpackets.ack⟩
  · intro ho
    have hpackets := hw.ordered (hordering.symm.trans ho)
    exact ⟨hpackets.no_receipts, hpackets.answered, hpackets.pending⟩

theorem WellFormed.sent {packet : Packet} {commitment : Bytes} (hw : WellFormed c.state)
    (hnext : packet.sequence = c.state.next_sequence_send)
    (hroom : channel_datum.packet_entry_count c.state <
      channel_datum.max_packet_entries_per_channel) :
    WellFormed (channel_datum.sent c packet commitment).state := by
  have hbegun := hw.begun
  have hnew : packet.sequence ∉ sequences c.state.packet_commitment := by
    intro hmem
    have := (hw.commitments_sent _ hmem).2
    omega
  have hkeys : ∀ k, k ∈ sequences (pairs.insert_by_ascending_key compare
      c.state.packet_commitment packet.sequence commitment) ↔
      k = packet.sequence ∨ k ∈ sequences c.state.packet_commitment :=
    fun k => pairs.mem_keys_insert_by_ascending_key hnew
  refine ⟨hw.awaits, ?_, hw.ordering, ?_, ?_, hw.acknowledgements_ascend, hw.receipts_distinct,
    fun ho => ⟨(hw.unordered ho).answered, (hw.unordered ho).recv, (hw.unordered ho).ack⟩,
    fun ho => ⟨(hw.ordered ho).no_receipts, (hw.ordered ho).answered, ?_⟩, ?_⟩
  · show 1 ≤ c.state.next_sequence_recv ∧ 1 ≤ c.state.next_sequence_ack ∧
      c.state.next_sequence_ack ≤ c.state.next_sequence_send + 1
    omega
  · exact pairs.ascending_insert_by_ascending_key hw.commitments_ascend hnew
  · intro k hk
    show 1 ≤ k ∧ k < c.state.next_sequence_send + 1
    rcases (hkeys k).mp hk with rfl | hk
    · omega
    · have := hw.commitments_sent k hk
      omega
  · intro k hk
    show c.state.next_sequence_ack ≤ k
    rcases (hkeys k).mp hk with rfl | hk
    · omega
    · exact (hw.ordered ho).pending k hk
  · have hlength := pairs.length_insert_by_ascending_key compare commitment hnew
    simp only [channel_datum.packet_entry_count, channel_datum.sent] at hroom ⊢
    omega

theorem WellFormed.received {packet : Packet} {ack : Bytes} {proof_height : Height}
    (hw : WellFormed c.state) (hunreceived : packet.sequence ∉ sequences c.state.packet_receipt)
    (hnew : packet.sequence ∉ sequences c.state.packet_acknowledgement)
    (h : channel_datum.RecvValid c c' packet ack proof_height) : WellFormed c'.state := by
  have hbegun := hw.begun
  have hroom := h.room
  have hkeys : ∀ k, k ∈ sequences (pairs.insert_by_ascending_key compare
      c.state.packet_acknowledgement packet.sequence ack) ↔
      k = packet.sequence ∨ k ∈ sequences c.state.packet_acknowledgement :=
    fun k => pairs.mem_keys_insert_by_ascending_key hnew
  have hascend := pairs.ascending_insert_by_ascending_key (v := ack)
    hw.acknowledgements_ascend hnew
  have hlength := pairs.length_insert_by_ascending_key compare ack hnew
  rcases channel_datum.received_cases h.effect with ⟨hordered, heq⟩ | ⟨hunordered, heq⟩
  · have hpackets := hw.ordered hordered
    have hnext := h.sequence hordered
    rw [heq]
    refine ⟨hw.awaits, ?_, hw.ordering, hw.commitments_ascend, hw.commitments_sent, hascend,
      hw.receipts_distinct, fun ho => ?_, fun _ => ⟨hpackets.no_receipts, ?_, hpackets.pending⟩, ?_⟩
    · show 1 ≤ c.state.next_sequence_recv + 1 ∧ 1 ≤ c.state.next_sequence_ack ∧
        c.state.next_sequence_ack ≤ c.state.next_sequence_send
      omega
    · exact absurd (hordered.symm.trans ho) (by decide)
    · intro k
      refine (hkeys k).trans ?_
      show _ ↔ 1 ≤ k ∧ k < c.state.next_sequence_recv + 1
      rw [hpackets.answered]
      omega
    · rw [if_pos hordered] at hroom
      simp only [channel_datum.packet_entry_count, channel_datum.receivedCommon] at hroom ⊢
      omega
  · have hpackets := hw.unordered hunordered
    rw [heq]
    refine ⟨hw.awaits, hbegun, hw.ordering, hw.commitments_ascend, hw.commitments_sent, hascend,
      ?_, fun _ => ⟨?_, hpackets.recv, hpackets.ack⟩, fun ho => ?_, ?_⟩
    · exact List.nodup_cons.mpr ⟨hunreceived, hw.receipts_distinct⟩
    · intro k
      refine List.mem_cons.trans (.trans ?_ (hkeys k).symm)
      exact or_congr_right (hpackets.answered k)
    · exact absurd (hunordered.symm.trans ho) (by decide)
    · rw [if_neg (by rw [hunordered]; decide)] at hroom
      simp only [channel_datum.packet_entry_count, channel_datum.receivedCommon,
        List.length_cons] at hroom ⊢
      omega

/-- Deleting a commitment keeps the record well formed, if on an ordered channel it is the next to
be acknowledged or the rest stays as it is. -/
theorem WellFormed.delete_commitment {s s' : ChannelDatumState} {k : Int} (hw : WellFormed s)
    (hk : k ∈ sequences s.packet_commitment)
    (hcommitment : s'.packet_commitment = pairs.delete_first s.packet_commitment k)
    (hordering : s'.channel.ordering = s.channel.ordering) (hinit : s'.channel.state ≠ .Init)
    (hrest : s'.packet_receipt = s.packet_receipt ∧
      s'.packet_acknowledgement = s.packet_acknowledgement ∧
      s'.next_sequence_send = s.next_sequence_send ∧ s'.next_sequence_recv = s.next_sequence_recv)
    (hack : s'.next_sequence_ack = s.next_sequence_ack ∨
      (s.channel.ordering = .Ordered ∧ k = s.next_sequence_ack ∧
        s'.next_sequence_ack = s.next_sequence_ack + 1)) : WellFormed s' := by
  obtain ⟨hreceipt, hacknowledgement, hsend, hrecv⟩ := hrest
  have hbegun := hw.begun
  have hdistinct := nodup_of_ascending hw.commitments_ascend
  have hsublist := pairs.delete_first_sublist s.packet_commitment k
  have hkeys : ∀ k', k' ∈ sequences s'.packet_commitment ↔
      k' ∈ sequences s.packet_commitment ∧ k' ≠ k := by
    intro k'
    rw [hcommitment]
    exact pairs.mem_keys_delete_first_iff hdistinct
  have hsent := hw.commitments_sent k hk
  refine ⟨fun h => absurd h hinit, ?_, by rw [hordering]; exact hw.ordering, ?_, ?_, ?_, ?_, ?_,
    ?_, ?_⟩
  · rcases hack with hack | ⟨-, rfl, hack⟩ <;> omega
  · rw [hcommitment]
    exact hw.commitments_ascend.sublist (hsublist.map _)
  · intro k' hk'
    rw [hsend]
    exact hw.commitments_sent k' ((hkeys k').mp hk').1
  · rw [hacknowledgement]
    exact hw.acknowledgements_ascend
  · rw [hreceipt]
    exact hw.receipts_distinct
  · intro ho
    rw [hordering] at ho
    have hpackets := hw.unordered ho
    refine ⟨?_, hrecv.trans hpackets.recv, ?_⟩
    · rw [hreceipt, hacknowledgement]
      exact hpackets.answered
    · rcases hack with hack | ⟨hordered, -, -⟩
      · exact hack.trans hpackets.ack
      · exact absurd (hordered.symm.trans ho) (by decide)
  · intro ho
    rw [hordering] at ho
    have hpackets := hw.ordered ho
    refine ⟨hreceipt.trans hpackets.no_receipts, ?_, ?_⟩
    · rw [hacknowledgement, hrecv]
      exact hpackets.answered
    · intro k' hk'
      obtain ⟨hmem, hne⟩ := (hkeys k').mp hk'
      have := hpackets.pending k' hmem
      rcases hack with hack | ⟨-, rfl, hack⟩ <;> omega
  · have hlength := hsublist.length_le
    have hbounded := hw.bounded
    simp only [channel_datum.packet_entry_count, hcommitment, hreceipt, hacknowledgement]
      at hbounded ⊢
    omega

theorem WellFormed.acknowledged {packet : Packet} (hw : WellFormed c.state)
    (hopen : c.state.channel.state = .Open)
    (hmem : packet.sequence ∈ sequences c.state.packet_commitment)
    (hsequence : c.state.channel.ordering = .Ordered →
      packet.sequence = c.state.next_sequence_ack) :
    WellFormed (channel_datum.acknowledged c packet).state := by
  refine hw.delete_commitment hmem rfl rfl ?_ ⟨rfl, rfl, rfl, rfl⟩ ?_
  · show c.state.channel.state ≠ .Init
    rw [hopen]
    decide
  by_cases hordered : c.state.channel.ordering = .Ordered
  · exact .inr ⟨hordered, hsequence hordered, by simp [channel_datum.acknowledged, hordered]⟩
  · exact .inl (by simp [channel_datum.acknowledged, hordered])

theorem WellFormed.timedOut {packet : Packet} (hw : WellFormed c.state)
    (hmem : packet.sequence ∈ sequences c.state.packet_commitment) :
    WellFormed (channel_datum.timedOut c packet).state := by
  refine hw.delete_commitment hmem rfl rfl ?_ ⟨rfl, rfl, rfl, rfl⟩ (.inl rfl)
  show (if c.state.channel.ordering = .Ordered then ChannelState.Closed else .Open) ≠ .Init
  split <;> decide

theorem WellFormed.pruned {sequence : Int} {proof_height : Height} (hw : WellFormed c.state)
    (hunordered : c.state.channel.ordering = .Unordered) :
    WellFormed (channel_datum.pruned c sequence proof_height).state := by
  have hpackets := hw.unordered hunordered
  have hacks := nodup_of_ascending hw.acknowledgements_ascend
  have hreceipts := pairs.delete_first_sublist c.state.packet_receipt sequence
  have hanswers := pairs.delete_first_sublist c.state.packet_acknowledgement sequence
  refine ⟨hw.awaits, hw.begun, hw.ordering, hw.commitments_ascend, hw.commitments_sent,
    hw.acknowledgements_ascend.sublist (hanswers.map _),
    hw.receipts_distinct.sublist (hreceipts.map _), fun _ => ⟨?_, hpackets.recv, hpackets.ack⟩,
    fun ho => ?_, ?_⟩
  · intro k
    show k ∈ sequences (pairs.delete_first c.state.packet_receipt sequence) ↔
      k ∈ sequences (pairs.delete_first c.state.packet_acknowledgement sequence)
    rw [pairs.mem_keys_delete_first_iff hw.receipts_distinct, pairs.mem_keys_delete_first_iff hacks]
    exact and_congr_left fun _ => hpackets.answered k
  · exact absurd (hunordered.symm.trans ho) (by decide)
  · have hbounded := hw.bounded
    have := hreceipts.length_le
    have := hanswers.length_le
    simp only [channel_datum.packet_entry_count, channel_datum.pruned] at hbounded ⊢
    omega

variable [Builtins]

theorem Pending.mem {packet : Packet} (h : Pending c packet) :
    packet.sequence ∈ sequences c.state.packet_commitment := by
  obtain ⟨commitment, hpending, -⟩ := h.committed
  exact List.mem_map_of_mem (mem_of_get_first hpending)

theorem Settles.wellFormed (h : Settles c c') (hw : WellFormed c.state) : WellFormed c'.state := by
  cases h with
  | acknowledge hopen hpending hsequence hvalid =>
    rw [channel_datum.validate_acknowledge_packet_iff.mp hvalid]
    exact hw.acknowledged hopen hpending.mem hsequence
  | timeout _ hpending hvalid =>
    rw [channel_datum.validate_timeout_packet_iff.mp hvalid]
    exact hw.timedOut hpending.mem
  | prune _ hvalid =>
    have h := channel_datum.validate_prune_packet_history_iff.mp hvalid
    rw [h.effect]
    exact hw.pruned h.unordered

theorem Transition.wellFormed (h : Transition c c') (hw : WellFormed c.state) :
    WellFormed c'.state := by
  cases h with
  | openAck hvalid =>
    obtain ⟨-, id, rfl⟩ := channel_datum.validate_chan_open_ack_spec hvalid
    exact hw.with_channel rfl (by rintro ⟨⟩)
  | openConfirm hvalid =>
    obtain ⟨-, rfl⟩ := channel_datum.validate_chan_open_confirm_spec hvalid
    exact hw.with_channel rfl (by rintro ⟨⟩)
  | close _ hvalid =>
    rw [channel_datum.validate_chan_close_init_spec hvalid]
    exact hw.with_channel rfl (by rintro ⟨⟩)
  | send _ _ hnext _ hvalid =>
    obtain ⟨hroom, rfl⟩ := channel_datum.validate_send_packet_iff.mp hvalid
    exact hw.sent hnext hroom
  | recv _ hreceipt hack hvalid =>
    exact hw.received (has_key_eq_false_iff.mp hreceipt) (has_key_eq_false_iff.mp hack)
      (channel_datum.validate_recv_packet_iff.mp hvalid)
  | settle h => exact h.wellFormed hw

/-! ## What only grows, and what stays -/

/-- How a channel's record may be after one it had. -/
structure Evolves (c c' : ChannelDatum) : Prop where
  token : c'.token = c.token
  port : c'.port_id = c.port_id
  ordering : c'.state.channel.ordering = c.state.channel.ordering
  hops : c'.state.channel.connection_hops = c.state.channel.connection_hops
  version : c'.state.channel.version = c.state.channel.version
  counterparty_port : c'.state.channel.counterparty.port_id = c.state.channel.counterparty.port_id
  counterparty_channel : c.state.channel.counterparty.channel_id ≠ [] →
    c'.state.channel.counterparty.channel_id = c.state.channel.counterparty.channel_id
  closed : c.state.channel.state = .Closed → c'.state.channel.state = .Closed
  send : c.state.next_sequence_send ≤ c'.state.next_sequence_send
  recv : c.state.next_sequence_recv ≤ c'.state.next_sequence_recv
  ack : c.state.next_sequence_ack ≤ c'.state.next_sequence_ack
  minimum : height.compare c.state.minimum_receive_proof_height
    c'.state.minimum_receive_proof_height ≠ .gt
  maximum : height.compare c.state.maximum_receive_proof_height
    c'.state.maximum_receive_proof_height ≠ .gt

omit [Builtins] in
theorem Evolves.refl (c : ChannelDatum) : Evolves c c :=
  ⟨rfl, rfl, rfl, rfl, rfl, rfl, fun _ => rfl, id, Int.le_refl _, Int.le_refl _, Int.le_refl _,
    height.le_refl _, height.le_refl _⟩

omit [Builtins] in
theorem Evolves.trans {c₁ c₂ c₃ : ChannelDatum} (h : Evolves c₁ c₂) (h' : Evolves c₂ c₃) :
    Evolves c₁ c₃ where
  token := h'.token.trans h.token
  port := h'.port.trans h.port
  ordering := h'.ordering.trans h.ordering
  hops := h'.hops.trans h.hops
  version := h'.version.trans h.version
  counterparty_port := h'.counterparty_port.trans h.counterparty_port
  counterparty_channel := by
    intro hset
    have hsame := h.counterparty_channel hset
    rw [h'.counterparty_channel (hsame ▸ hset), hsame]
  closed := fun hclosed => h'.closed (h.closed hclosed)
  send := Int.le_trans h.send h'.send
  recv := Int.le_trans h.recv h'.recv
  ack := Int.le_trans h.ack h'.ack
  minimum := height.le_trans h.minimum h'.minimum
  maximum := height.le_trans h.maximum h'.maximum

omit [Builtins] in
/-- An operation that leaves the channel's end alone. -/
theorem Evolves.of_channel_eq {c c' : ChannelDatum} (htoken : c'.token = c.token)
    (hport : c'.port_id = c.port_id) (hchannel : c'.state.channel = c.state.channel)
    (hsend : c.state.next_sequence_send ≤ c'.state.next_sequence_send)
    (hrecv : c.state.next_sequence_recv ≤ c'.state.next_sequence_recv)
    (hack : c.state.next_sequence_ack ≤ c'.state.next_sequence_ack)
    (hmin : height.compare c.state.minimum_receive_proof_height
      c'.state.minimum_receive_proof_height ≠ .gt)
    (hmax : height.compare c.state.maximum_receive_proof_height
      c'.state.maximum_receive_proof_height ≠ .gt) : Evolves c c' :=
  ⟨htoken, hport, by rw [hchannel], by rw [hchannel], by rw [hchannel], by rw [hchannel],
    fun _ => by rw [hchannel], fun hclosed => by rw [hchannel, hclosed], hsend, hrecv, hack, hmin,
    hmax⟩

theorem Settles.evolves (h : Settles c c') : Evolves c c' := by
  cases h with
  | acknowledge _ _ _ hvalid =>
    rw [channel_datum.validate_acknowledge_packet_iff.mp hvalid]
    refine .of_channel_eq rfl rfl rfl (Int.le_refl _) (Int.le_refl _) ?_ (height.le_refl _)
      (height.le_refl _)
    simp only [channel_datum.acknowledged]
    split <;> omega
  | timeout hopen _ hvalid =>
    rw [channel_datum.validate_timeout_packet_iff.mp hvalid]
    refine ⟨rfl, rfl, rfl, rfl, rfl, rfl, fun _ => rfl, ?_, Int.le_refl _, Int.le_refl _,
      Int.le_refl _, height.le_refl _, height.le_refl _⟩
    intro hclosed
    rw [hopen] at hclosed
    cases hclosed
  | prune _ hvalid =>
    have h := channel_datum.validate_prune_packet_history_iff.mp hvalid
    rw [h.effect]
    exact .of_channel_eq rfl rfl rfl (Int.le_refl _) (Int.le_refl _) (Int.le_refl _)
      (height.compare_ne_lt_iff.mp h.above_minimum) (height.le_refl _)

omit [Builtins] in
/-- A change of the channel's end that sets the counterparty's id at most where there was none. -/
theorem Evolves.with_channel {ch : Channel} (hordering : ch.ordering = c.state.channel.ordering)
    (hhops : ch.connection_hops = c.state.channel.connection_hops)
    (hversion : ch.version = c.state.channel.version)
    (hport : ch.counterparty.port_id = c.state.channel.counterparty.port_id)
    (hchannel : c.state.channel.counterparty.channel_id ≠ [] →
      ch.counterparty.channel_id = c.state.channel.counterparty.channel_id)
    (hclosed : c.state.channel.state = .Closed → ch.state = .Closed) :
    Evolves c (channel_datum.withChannel c ch) :=
  ⟨rfl, rfl, hordering, hhops, hversion, hport, hchannel, hclosed, Int.le_refl _, Int.le_refl _,
    Int.le_refl _, height.le_refl _, height.le_refl _⟩

/-- Every step lets the record evolve. -/
theorem Transition.evolves (h : Transition c c') (hw : WellFormed c.state) : Evolves c c' := by
  cases h with
  | openAck hvalid =>
    obtain ⟨hinit, id, rfl⟩ := channel_datum.validate_chan_open_ack_spec hvalid
    refine .with_channel rfl rfl rfl rfl ?_ ?_
    · exact fun hset => absurd (hw.awaits hinit) hset
    · intro hclosed
      rw [hinit] at hclosed
      cases hclosed
  | openConfirm hvalid =>
    obtain ⟨htry, rfl⟩ := channel_datum.validate_chan_open_confirm_spec hvalid
    refine .with_channel rfl rfl rfl rfl (fun _ => rfl) ?_
    intro hclosed
    rw [htry] at hclosed
    cases hclosed
  | close _ hvalid =>
    rw [channel_datum.validate_chan_close_init_spec hvalid]
    exact .with_channel rfl rfl rfl rfl (fun _ => rfl) (fun _ => rfl)
  | send _ _ _ _ hvalid =>
    obtain ⟨-, rfl⟩ := channel_datum.validate_send_packet_iff.mp hvalid
    refine .of_channel_eq rfl rfl rfl ?_ (Int.le_refl _) (Int.le_refl _) (height.le_refl _)
      (height.le_refl _)
    show c.state.next_sequence_send ≤ c.state.next_sequence_send + 1
    omega
  | @recv packet _ proof_height _ _ _ hvalid =>
    have hmax := (channel_datum.le_maxHeight proof_height c.state.maximum_receive_proof_height).2
    rcases channel_datum.received_cases
      (channel_datum.validate_recv_packet_iff.mp hvalid).effect with ⟨-, rfl⟩ | ⟨-, rfl⟩
    · refine .of_channel_eq rfl rfl rfl (Int.le_refl _) ?_ (Int.le_refl _) (height.le_refl _) hmax
      show c.state.next_sequence_recv ≤ c.state.next_sequence_recv + 1
      omega
    · exact .of_channel_eq rfl rfl rfl (Int.le_refl _) (Int.le_refl _) (Int.le_refl _)
        (height.le_refl _) hmax
  | settle h => exact h.evolves

theorem ChannelReachable.wellFormed (h : ChannelReachable c) : WellFormed c.state := by
  induction h with
  | opened opens => exact opens.wellFormed
  | step _ move ih => exact move.wellFormed ih

end Invariants

end cardano_ibc
