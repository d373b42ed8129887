-- Whether the entries of an open channel can be cleared away so that packets can be received and
-- sent again. On an unordered channel they can; an ordered one keeps every acknowledgement.
import CardanoIbc.Channel.WellFormed
import Mathlib.Data.Int.Interval

namespace cardano_ibc

section Law

variable [Builtins] {c c' : ChannelDatum}

/-! ## Packets that are in flight -/

/-- Every commitment is to a packet that goes out from the channel, and on an ordered channel that
is not closed, all packets from the next to be acknowledged on are committed to. -/
structure InFlight (c : ChannelDatum) : Prop where
  idle : c.state.channel.state = .Init → c.state.packet_commitment = []
  packets : ∀ e ∈ c.state.packet_commitment, ∃ packet : Packet, packet.sequence = e.1 ∧
    Outbound c packet ∧ cardano_ibc.packet.commit_packet packet = some e.2
  consecutive : c.state.channel.ordering = .Ordered → c.state.channel.state ≠ .Closed →
    ∀ k, c.state.next_sequence_ack ≤ k → k < c.state.next_sequence_send →
      k ∈ sequences c.state.packet_commitment

omit [Builtins] in
theorem Outbound.of_counterparty_eq {packet : Packet} (h : Outbound c packet)
    (htoken : c'.token = c.token) (hport : c'.port_id = c.port_id)
    (hcounterparty : c'.state.channel.counterparty = c.state.channel.counterparty) :
    Outbound c' packet := by
  refine ⟨hport ▸ h.source_port, ?_, hcounterparty ▸ h.destination_port,
    hcounterparty ▸ h.destination_channel⟩
  rw [ChannelDatum.channelId, htoken]
  exact h.source_channel

/-- Nothing is sent yet. -/
theorem Opens.inFlight (h : Opens c) : InFlight c := by
  have hfresh := h.fresh
  simp only [channel_datum.isFresh, Bool.and_eq_true, beq_iff_eq, List.isEmpty_iff] at hfresh
  obtain ⟨⟨⟨⟨⟨hsend, -⟩, hack⟩, -⟩, -⟩, ⟨hcommitment, -⟩, -⟩ := hfresh
  refine ⟨fun _ => hcommitment, ?_, ?_⟩
  · rw [hcommitment]
    simp
  · intro _ _ k hk hk'
    omega

/-- A step that takes commitments away, and on an ordered channel that is not closed only the next
to be acknowledged, leaves the others in flight. -/
theorem InFlight.of_sublist (h : InFlight c) (htoken : c'.token = c.token)
    (hport : c'.port_id = c.port_id)
    (hcounterparty : c'.state.channel.counterparty = c.state.channel.counterparty)
    (hsublist : c'.state.packet_commitment.Sublist c.state.packet_commitment)
    (hinit : c'.state.channel.state = .Init → c.state.channel.state = .Init)
    (hconsecutive : c'.state.channel.ordering = .Ordered → c'.state.channel.state ≠ .Closed →
      ∀ k, c'.state.next_sequence_ack ≤ k → k < c'.state.next_sequence_send →
        k ∈ sequences c'.state.packet_commitment) : InFlight c' := by
  refine ⟨?_, ?_, hconsecutive⟩
  · intro hi
    have hnil := hsublist
    rw [h.idle (hinit hi)] at hnil
    exact List.sublist_nil.mp hnil
  · intro e he
    obtain ⟨packet, hsequence, hout, hcommit⟩ := h.packets e (hsublist.subset he)
    exact ⟨packet, hsequence, hout.of_counterparty_eq htoken hport hcounterparty, hcommit⟩

theorem Settles.inFlight (h : Settles c c') (hw : WellFormed c.state) (hf : InFlight c) :
    InFlight c' := by
  cases h with
  | @acknowledge packet hopen hpending hsequence hvalid =>
    rw [channel_datum.validate_acknowledge_packet_iff.mp hvalid]
    refine hf.of_sublist rfl rfl rfl (pairs.delete_first_sublist _ _) id ?_
    intro hordered _ k hk hk'
    have hordered : c.state.channel.ordering = .Ordered := hordered
    have hk : c.state.next_sequence_ack + 1 ≤ k := by
      simpa [channel_datum.acknowledged, hordered] using hk
    refine (pairs.mem_keys_delete_first_iff (nodup_of_ascending hw.commitments_ascend)).mpr
      ⟨hf.consecutive hordered (by rw [hopen]; decide) k (by omega) hk', ?_⟩
    have := hsequence hordered
    omega
  | timeout hopen hpending hvalid =>
    rw [channel_datum.validate_timeout_packet_iff.mp hvalid]
    refine hf.of_sublist rfl rfl rfl (pairs.delete_first_sublist _ _) ?_ ?_
    · intro hinit
      have hne : (if c.state.channel.ordering = .Ordered then ChannelState.Closed else .Open) ≠
        .Init := by split <;> decide
      exact absurd hinit hne
    · intro hordered hopen'
      have hordered : c.state.channel.ordering = .Ordered := hordered
      exact absurd (by simp [channel_datum.timedOut, hordered]) hopen'
  | prune _ hvalid =>
    have h := channel_datum.validate_prune_packet_history_iff.mp hvalid
    rw [h.effect]
    exact hf.of_sublist rfl rfl rfl (List.Sublist.refl _) id hf.consecutive

theorem InFlight.sent {packet : Packet} {commitment : Bytes} (hf : InFlight c)
    (hw : WellFormed c.state) (hopen : c.state.channel.state = .Open)
    (hout : Outbound c packet) (hnext : packet.sequence = c.state.next_sequence_send)
    (hcommit : cardano_ibc.packet.commit_packet packet = some commitment) :
    InFlight (channel_datum.sent c packet commitment) := by
  have hnew : packet.sequence ∉ sequences c.state.packet_commitment := by
    intro hmem
    have := (hw.commitments_sent _ hmem).2
    omega
  have hperm : (channel_datum.sent c packet commitment).state.packet_commitment.Perm
      ((packet.sequence, commitment) :: c.state.packet_commitment) :=
    pairs.perm_insert_by_ascending_key hnew
  refine ⟨?_, ?_, ?_⟩
  · intro hinit
    have hinit : c.state.channel.state = .Init := hinit
    rw [hopen] at hinit
    cases hinit
  · intro e he
    rcases List.mem_cons.mp (hperm.mem_iff.mp he) with rfl | he
    · exact ⟨packet, rfl, hout.of_counterparty_eq rfl rfl rfl, hcommit⟩
    · obtain ⟨packet', hsequence, hout', hcommit'⟩ := hf.packets e he
      exact ⟨packet', hsequence, hout'.of_counterparty_eq rfl rfl rfl, hcommit'⟩
  · intro hordered hnot k hk hk'
    have hk' : k < c.state.next_sequence_send + 1 := hk'
    refine (hperm.map Prod.fst).mem_iff.mpr (List.mem_cons.mpr ?_)
    by_cases hlast : k = c.state.next_sequence_send
    · exact .inl (by rw [hlast, hnext])
    · exact .inr (hf.consecutive hordered hnot k hk (by omega))

theorem Transition.inFlight (h : Transition c c') (hw : WellFormed c.state) (hf : InFlight c) :
    InFlight c' := by
  cases h with
  | openAck hvalid =>
    obtain ⟨hinit, id, rfl⟩ := channel_datum.validate_chan_open_ack_spec hvalid
    have hnone := hf.idle hinit
    refine ⟨(by rintro ⟨⟩), ?_, ?_⟩
    · intro e he
      have he : e ∈ c.state.packet_commitment := he
      rw [hnone] at he
      cases he
    · exact fun hordered _ => hf.consecutive hordered (by rw [hinit]; decide)
  | openConfirm hvalid =>
    obtain ⟨htry, rfl⟩ := channel_datum.validate_chan_open_confirm_spec hvalid
    refine hf.of_sublist rfl rfl rfl (List.Sublist.refl _) (by rintro ⟨⟩) ?_
    exact fun hordered _ => hf.consecutive hordered (by rw [htry]; decide)
  | close _ hvalid =>
    rw [channel_datum.validate_chan_close_init_spec hvalid]
    refine hf.of_sublist rfl rfl rfl (List.Sublist.refl _) (by rintro ⟨⟩) ?_
    exact fun _ hopen => absurd rfl hopen
  | send hopen hout hnext hcommit hvalid =>
    obtain ⟨-, rfl⟩ := channel_datum.validate_send_packet_iff.mp hvalid
    exact hf.sent hw hopen hout hnext hcommit
  | recv _ _ _ hvalid =>
    rcases channel_datum.received_cases
      (channel_datum.validate_recv_packet_iff.mp hvalid).effect with ⟨-, rfl⟩ | ⟨-, rfl⟩
    · exact hf.of_sublist rfl rfl rfl (List.Sublist.refl _) id hf.consecutive
    · exact hf.of_sublist rfl rfl rfl (List.Sublist.refl _) id hf.consecutive
  | settle h => exact h.inFlight hw hf

theorem ChannelReachable.inFlight (h : ChannelReachable c) : InFlight c := by
  induction h with
  | opened opens => exact opens.inFlight
  | step before move ih => exact move.inFlight before.wellFormed ih

/-! ## Clearing an open channel -/

/-- An open channel with the packets it may have. -/
structure Live (c : ChannelDatum) : Prop where
  is_open : c.state.channel.state = .Open
  wellFormed : WellFormed c.state
  inFlight : InFlight c

/-- A packet in flight can be acknowledged, on an ordered channel the first of them. -/
theorem Live.exists_acknowledge (h : Live c) (hsome : c.state.packet_commitment ≠ []) :
    ∃ packet, Pending c packet ∧
      (c.state.channel.ordering = .Ordered → packet.sequence = c.state.next_sequence_ack) := by
  suffices hkey : ∃ k ∈ sequences c.state.packet_commitment,
      c.state.channel.ordering = .Ordered → k = c.state.next_sequence_ack by
    obtain ⟨k, hk, hsequence⟩ := hkey
    obtain ⟨e, he, rfl⟩ := List.mem_map.mp hk
    obtain ⟨packet, hpacket, hout, hcommit⟩ := h.inFlight.packets e he
    have hfound := get_first_of_mem (nodup_of_ascending h.wellFormed.commitments_ascend) he
    exact ⟨packet, ⟨hout, e.2, hpacket ▸ hfound, hcommit⟩, fun ho => hpacket.trans (hsequence ho)⟩
  obtain ⟨e, he⟩ := List.exists_mem_of_ne_nil _ hsome
  have hmem : e.1 ∈ sequences c.state.packet_commitment := List.mem_map_of_mem he
  by_cases hordered : c.state.channel.ordering = .Ordered
  · have hpending := (h.wellFormed.ordered hordered).pending _ hmem
    have hsent := (h.wellFormed.commitments_sent _ hmem).2
    refine ⟨c.state.next_sequence_ack, ?_, fun _ => rfl⟩
    exact h.inFlight.consecutive hordered (by rw [h.is_open]; decide) _ (Int.le_refl _) (by omega)
  · exact ⟨e.1, hmem, fun ho => absurd ho hordered⟩

/-- All packets in flight can be acknowledged one after the other, which changes nothing that was
received. -/
theorem Live.clear_commitments (h : Live c) :
    ∃ c', Relation.ReflTransGen Settles c c' ∧ Live c' ∧ c'.state.packet_commitment = [] ∧
      c'.state.channel = c.state.channel ∧ c'.state.packet_receipt = c.state.packet_receipt ∧
      c'.state.packet_acknowledgement = c.state.packet_acknowledgement ∧
      c'.state.next_sequence_recv = c.state.next_sequence_recv := by
  -- by the number of packets in flight
  induction hlength : c.state.packet_commitment.length generalizing c with
  | zero =>
    exact ⟨c, .refl, h, List.length_eq_zero_iff.mp hlength, rfl, rfl, rfl, rfl⟩
  | succ n ih =>
    have hsome : c.state.packet_commitment ≠ [] := by
      intro hnil
      rw [hnil] at hlength
      cases hlength
    obtain ⟨packet, hpending, hsequence⟩ := h.exists_acknowledge hsome
    have hstep : Settles c (channel_datum.acknowledged c packet) :=
      .acknowledge h.is_open hpending hsequence
        (channel_datum.validate_acknowledge_packet_iff.mpr rfl)
    have hlive : Live (channel_datum.acknowledged c packet) :=
      ⟨h.is_open, hstep.wellFormed h.wellFormed, hstep.inFlight h.wellFormed h.inFlight⟩
    obtain ⟨commitment, hfound, -⟩ := hpending.committed
    have hless := (pairs.perm_delete_first hfound).length_eq
    obtain ⟨c', hsteps, hlive', hnone, hchannel, hreceipt, hack, hrecv⟩ := ih hlive (by
      show (pairs.delete_first c.state.packet_commitment packet.sequence).length = n
      rw [List.length_cons] at hless
      omega)
    exact ⟨c', .head hstep hsteps, hlive', hnone, hchannel, hreceipt, hack, hrecv⟩

/-- What was received on an unordered channel can be pruned. -/
theorem Live.clear_history (h : Live c) (hunordered : c.state.channel.ordering = .Unordered)
    (hnone : c.state.packet_commitment = []) :
    ∃ c', Relation.ReflTransGen Settles c c' ∧ Live c' ∧
      c'.state.channel.ordering = .Unordered ∧
      channel_datum.packet_entry_count c'.state = 0 := by
  -- by the number of receipts; each has its acknowledgement
  induction hlength : c.state.packet_receipt.length generalizing c with
  | zero =>
    have hreceipts := List.length_eq_zero_iff.mp hlength
    have hacks : c.state.packet_acknowledgement = [] := by
      have hanswered := (h.wellFormed.unordered hunordered).answered
      rw [hreceipts] at hanswered
      refine List.eq_nil_iff_forall_not_mem.mpr fun e he => ?_
      exact absurd ((hanswered e.1).mpr (List.mem_map_of_mem he)) (by simp)
    refine ⟨c, .refl, h, hunordered, ?_⟩
    simp [channel_datum.packet_entry_count, hnone, hreceipts, hacks]
  | succ n ih =>
    obtain ⟨e, rest, hreceipts⟩ := List.exists_cons_of_length_eq_add_one hlength
    have hmem : e.1 ∈ sequences c.state.packet_receipt := by simp [hreceipts]
    have hack := ((h.wellFormed.unordered hunordered).answered _).mp hmem
    obtain ⟨hmax, hmin⟩ := channel_datum.le_maxHeight c.state.maximum_receive_proof_height
      c.state.minimum_receive_proof_height
    have hstep : Settles c (channel_datum.pruned c e.1 (channel_datum.maxHeight
        c.state.maximum_receive_proof_height c.state.minimum_receive_proof_height)) :=
      .prune h.is_open (channel_datum.validate_prune_packet_history_iff.mpr
        ⟨hunordered, has_key_iff.mpr hmem, has_key_iff.mpr hack,
          height.compare_ne_lt_iff.mpr hmin, height.compare_ne_lt_iff.mpr hmax, rfl⟩)
    have hlive : Live (channel_datum.pruned c e.1 _) :=
      ⟨h.is_open, hstep.wellFormed h.wellFormed, hstep.inFlight h.wellFormed h.inFlight⟩
    obtain ⟨c', hsteps, hrest⟩ := ih hlive hunordered hnone (by
      show (pairs.delete_first c.state.packet_receipt e.1).length = n
      rw [hreceipts] at hlength ⊢
      simpa [pairs.delete_first] using hlength)
    exact ⟨c', .head hstep hsteps, hrest⟩

/-! ## Room for the next packets -/

/-- The record has room for a next packet that arrives. -/
def CanReceive (c : ChannelDatum) : Prop :=
  ∃ c' packet ack proof_height, c.state.channel.state = .Open ∧ 0 < packet.sequence ∧
    has_key c.state.packet_receipt packet.sequence = false ∧
    has_key c.state.packet_acknowledgement packet.sequence = false ∧
    channel_datum.validate_recv_packet c c' packet ack proof_height = some true

/-- The record has room for a next packet that is sent. -/
def CanSend (c : ChannelDatum) : Prop :=
  ∃ c' packet commitment, c.state.channel.state = .Open ∧
    packet.sequence = c.state.next_sequence_send ∧
    channel_datum.validate_send_packet c c' packet commitment = true

omit [Builtins] in
/-- On an ordered channel there is an acknowledgement for each packet received. -/
theorem OrderedPackets.length_acknowledgement {s : ChannelDatumState} (h : OrderedPackets s)
    (hw : WellFormed s) : (s.packet_acknowledgement.length : Int) = s.next_sequence_recv - 1 := by
  have hnodup := nodup_of_ascending hw.acknowledgements_ascend
  have hset : (sequences s.packet_acknowledgement).toFinset = Finset.Ico 1 s.next_sequence_recv := by
    ext k
    rw [List.mem_toFinset, h.answered, Finset.mem_Ico]
  have hcard := List.toFinset_card_of_nodup hnodup
  rw [hset, Int.card_Ico, List.length_map] at hcard
  have := hw.begun
  omega

/-- A packet that nothing is said about but its sequence. -/
def blankPacket (sequence : Int) : Packet where
  sequence := sequence
  source_port := []
  source_channel := []
  destination_port := []
  destination_channel := []
  data := []
  timeout_height := height.zero_height
  timeout_timestamp := 0

theorem Live.canReceive (h : Live c) (hroom : channel_datum.packet_entry_count c.state +
    (if c.state.channel.ordering = .Ordered then 1 else 2) ≤
      channel_datum.max_packet_entries_per_channel) : CanReceive c := by
  suffices hkey : ∃ k, 0 < k ∧ k ∉ sequences c.state.packet_receipt ∧
      k ∉ sequences c.state.packet_acknowledgement ∧
      (c.state.channel.ordering = .Ordered → k = c.state.next_sequence_recv) by
    obtain ⟨k, hpos, hreceipt, hack, hsequence⟩ := hkey
    have heffect : ∃ c', channel_datum.received c (blankPacket k) []
        c.state.minimum_receive_proof_height = some c' := by
      unfold channel_datum.received
      rcases h.wellFormed.ordering with ho | ho <;> simp [ho]
    obtain ⟨c', heffect⟩ := heffect
    refine ⟨c', blankPacket k, [], c.state.minimum_receive_proof_height, h.is_open, hpos,
      has_key_eq_false_iff.mpr hreceipt, has_key_eq_false_iff.mpr hack,
      channel_datum.validate_recv_packet_iff.mpr ⟨hsequence, ?_, hroom, heffect⟩⟩
    exact height.compare_ne_lt_iff.mpr (height.le_refl _)
  by_cases hordered : c.state.channel.ordering = .Ordered
  · have hpackets := h.wellFormed.ordered hordered
    have hbegun := h.wellFormed.begun
    refine ⟨c.state.next_sequence_recv, by omega, ?_, ?_, fun _ => rfl⟩
    · rw [hpackets.no_receipts]
      exact List.not_mem_nil
    · rw [hpackets.answered]
      omega
  · obtain ⟨n, hn⟩ := Infinite.exists_notMem_finset (insert 0
      ((sequences c.state.packet_receipt ++ sequences c.state.packet_acknowledgement).map
        Int.toNat).toFinset)
    rw [Finset.mem_insert, List.mem_toFinset, not_or] at hn
    have hfresh : ∀ hmem : (n : Int) ∈ sequences c.state.packet_receipt ++
        sequences c.state.packet_acknowledgement, False := fun hmem =>
      hn.2 (List.mem_map.mpr ⟨n, hmem, Int.toNat_natCast n⟩)
    have hzero := hn.1
    exact ⟨n, by omega, fun hmem => hfresh (List.mem_append_left _ hmem),
      fun hmem => hfresh (List.mem_append_right _ hmem), fun ho => absurd ho hordered⟩

theorem Live.canSend (h : Live c) (hroom : channel_datum.packet_entry_count c.state <
    channel_datum.max_packet_entries_per_channel) : CanSend c :=
  ⟨_, blankPacket c.state.next_sequence_send, [], h.is_open, rfl,
    channel_datum.validate_send_packet_iff.mpr ⟨hroom, rfl⟩⟩

/-- No step that takes entries away takes an acknowledgement from an ordered channel. -/
theorem Settles.keeps_acknowledgements (h : Settles c c')
    (hordered : c.state.channel.ordering = .Ordered) :
    c'.state.channel.ordering = .Ordered ∧
      c'.state.packet_acknowledgement = c.state.packet_acknowledgement := by
  cases h with
  | acknowledge _ _ _ hvalid =>
    rw [channel_datum.validate_acknowledge_packet_iff.mp hvalid]
    exact ⟨hordered, rfl⟩
  | timeout _ _ hvalid =>
    rw [channel_datum.validate_timeout_packet_iff.mp hvalid]
    exact ⟨hordered, rfl⟩
  | prune _ hvalid =>
    have hunordered := (channel_datum.validate_prune_packet_history_iff.mp hvalid).unordered
    rw [hordered] at hunordered
    cases hunordered

theorem settled_keeps_acknowledgements (h : Relation.ReflTransGen Settles c c')
    (hordered : c.state.channel.ordering = .Ordered) :
    c'.state.channel.ordering = .Ordered ∧
      c'.state.packet_acknowledgement = c.state.packet_acknowledgement := by
  induction h with
  | refl => exact ⟨hordered, rfl⟩
  | tail _ hstep ih =>
    obtain ⟨hordered', hsame⟩ := hstep.keeps_acknowledgements ih.1
    exact ⟨hordered', hsame.trans ih.2⟩

/-- An ordered channel that has received as many packets as it may have entries never has room to
receive one more. -/
theorem never_receives_again (h : ChannelReachable c)
    (hordered : c.state.channel.ordering = .Ordered)
    (hfull : channel_datum.max_packet_entries_per_channel < c.state.next_sequence_recv)
    (hsteps : Relation.ReflTransGen Settles c c') : ¬ CanReceive c' := by
  rintro ⟨_, packet, ack, proof_height, -, -, -, -, hvalid⟩
  obtain ⟨hordered', hsame⟩ := settled_keeps_acknowledgements hsteps hordered
  have hroom := (channel_datum.validate_recv_packet_iff.mp hvalid).room
  have hlength := (h.wellFormed.ordered hordered).length_acknowledgement h.wellFormed
  rw [if_pos hordered', channel_datum.packet_entry_count, hsame] at hroom
  omega

/-- An open channel can be cleared so that it has room to receive and to send exactly if it is
unordered or has received fewer packets than it may have entries. -/
theorem open_channel_clears_iff (h : ChannelReachable c) (hopen : c.state.channel.state = .Open) :
    (∃ c', Relation.ReflTransGen Settles c c' ∧ CanReceive c' ∧ CanSend c') ↔
      c.state.channel.ordering = .Unordered ∨
        c.state.next_sequence_recv ≤ channel_datum.max_packet_entries_per_channel := by
  have hlive : Live c := ⟨hopen, h.wellFormed, h.inFlight⟩
  constructor
  · rintro ⟨c', hsteps, hreceive, -⟩
    rcases h.wellFormed.ordering with hordered | hunordered
    · by_contra hnot
      rw [not_or, not_le] at hnot
      exact never_receives_again h hordered hnot.2 hsteps hreceive
    · exact .inl hunordered
  · intro hcan
    obtain ⟨c₁, hsteps, hlive₁, hnone, hchannel, hreceipt, hack, hrecv⟩ := hlive.clear_commitments
    rcases h.wellFormed.ordering with hordered | hunordered
    · have hordered₁ : c₁.state.channel.ordering = .Ordered := by rw [hchannel, hordered]
      have hpackets := hlive₁.wellFormed.ordered hordered₁
      have hlength := hpackets.length_acknowledgement hlive₁.wellFormed
      have hcount : channel_datum.packet_entry_count c₁.state + 1 ≤
          channel_datum.max_packet_entries_per_channel := by
        rcases hcan with ho | hroom
        · rw [hordered] at ho
          cases ho
        · rw [channel_datum.packet_entry_count, hnone, hpackets.no_receipts]
          simp only [List.length_nil]
          omega
      exact ⟨c₁, hsteps, hlive₁.canReceive (by rw [if_pos hordered₁]; exact hcount),
        hlive₁.canSend hcount⟩
    · obtain ⟨c₂, hsteps₂, hlive₂, hunordered₂, hcount⟩ :=
        hlive₁.clear_history (by rw [hchannel, hunordered]) hnone
      refine ⟨c₂, hsteps.trans hsteps₂, hlive₂.canReceive ?_, hlive₂.canSend ?_⟩
      · rw [hcount, if_neg (by rw [hunordered₂]; decide)]
        decide
      · rw [hcount]
        decide

end Law

/-! ## An ordered channel that is full -/

section Sample

local instance drainBuiltins : Builtins := ledgerBuiltins

/-- A channel that was just opened on this side. -/
def openingChannel (ordering : Order) : ChannelDatum where
  state :=
    { channel :=
        { state := .Init, ordering, counterparty := { port_id := utf8 "transfer", channel_id := [] },
          connection_hops := [utf8 "connection-0"], version := utf8 "ics20-1" }
      next_sequence_send := 1
      next_sequence_recv := 1
      next_sequence_ack := 1
      packet_commitment := []
      packet_receipt := []
      packet_acknowledgement := []
      minimum_receive_proof_height := height.zero_height
      maximum_receive_proof_height := height.zero_height }
  port_id := utf8 "transfer"
  token := { policy_id := List.replicate 28 7, name := List.replicate 24 8 ++ utf8 "0" }

/-- The same once the counterparty has answered. -/
def openedChannel (ordering : Order) : ChannelDatum :=
  channel_datum.withChannel (openingChannel ordering)
    { (openingChannel ordering).state.channel with
      state := .Open
      counterparty := { port_id := utf8 "transfer", channel_id := utf8 "channel-0" } }

theorem openedChannel_reachable {ordering : Order} (h : ordering ≠ .None) :
    ChannelReachable (openedChannel ordering) := by
  refine .step (c := openingChannel ordering) (.opened ?_) (.openAck ?_)
  · cases ordering with
    | None => exact absurd rfl h
    | Unordered => exact ⟨by decide, by decide, by decide, .inl ⟨rfl, rfl⟩⟩
    | Ordered => exact ⟨by decide, by decide, by decide, .inl ⟨rfl, rfl⟩⟩
  · cases ordering <;> decide

/-- As many packets can be received one after the other as there may be entries. -/
theorem exists_received {n : Nat} (hn : n ≤ channel_datum.max_packet_entries_per_channel) :
    ∃ c, ChannelReachable c ∧ c.state.channel.state = .Open ∧
      c.state.channel.ordering = .Ordered ∧ c.state.packet_commitment = [] ∧
      c.state.next_sequence_recv = n + 1 := by
  induction n with
  | zero =>
    exact ⟨openedChannel .Ordered, openedChannel_reachable (by decide), rfl, rfl, rfl, rfl⟩
  | succ n ih =>
    obtain ⟨c, hreachable, hopen, hordered, hnone, hrecv⟩ := ih (by omega)
    have hlive : Live c := ⟨hopen, hreachable.wellFormed, hreachable.inFlight⟩
    have hpackets := hreachable.wellFormed.ordered hordered
    have hlength := hpackets.length_acknowledgement hreachable.wellFormed
    obtain ⟨c', packet, ack, proof_height, -, -, hreceipt, hack, hvalid⟩ :=
      hlive.canReceive (by
        rw [if_pos hordered, channel_datum.packet_entry_count, hnone, hpackets.no_receipts]
        simp only [List.length_nil]
        omega)
    refine ⟨c', hreachable.step (.recv hopen hreceipt hack hvalid), ?_⟩
    rcases channel_datum.received_cases
      (channel_datum.validate_recv_packet_iff.mp hvalid).effect with ⟨-, rfl⟩ | ⟨hunordered, -⟩
    · refine ⟨hopen, hordered, hnone, ?_⟩
      show c.state.next_sequence_recv + 1 = _
      rw [hrecv]
      rfl
    · rw [hordered] at hunordered
      cases hunordered

/-- An ordered channel is open and stays unable to receive, whatever is acknowledged, timed out or
pruned on it. -/
theorem an_ordered_channel_is_full :
    ∃ c, ChannelReachable c ∧ c.state.channel.state = .Open ∧
      c.state.channel.ordering = .Ordered ∧
      ∀ c', Relation.ReflTransGen Settles c c' → ¬ CanReceive c' := by
  obtain ⟨c, hreachable, hopen, hordered, -, hrecv⟩ :=
    exists_received (Nat.le_refl channel_datum.max_packet_entries_per_channel)
  exact ⟨c, hreachable, hopen, hordered, fun c' =>
    never_receives_again hreachable hordered (by omega)⟩

theorem a_new_channel_clears :
    ∃ c', Relation.ReflTransGen Settles (openedChannel .Unordered) c' ∧ CanReceive c' ∧
      CanSend c' :=
  (open_channel_clears_iff (openedChannel_reachable (by decide)) rfl).mpr (.inl rfl)

end Sample

end cardano_ibc
