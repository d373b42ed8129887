-- Outbound packets along a run. A packet is committed to when it is sent and until it is
-- acknowledged or times out, and the commitment is what either of them asks for; so each happens
-- once at most, and not both.
import CardanoIbc.Channel.Stranded

namespace cardano_ibc

/-! ## The packets of a run -/

/-- The packet that an order sends. -/
def SpendChannelRedeemer.sent : SpendChannelRedeemer → Option Packet
  | .SendPacket packet => some packet
  | _ => none

/-- The packet that an order acknowledges. -/
def SpendChannelRedeemer.acknowledged : SpendChannelRedeemer → Option Packet
  | .AcknowledgePacket packet _ _ _ => some packet
  | _ => none

/-- The packet that an order times out. -/
def SpendChannelRedeemer.timedOut : SpendChannelRedeemer → Option Packet
  | .TimeoutPacket packet _ _ _ => some packet
  | _ => none

/-- The packet that an order acknowledges or times out. -/
def SpendChannelRedeemer.resolved (order : SpendChannelRedeemer) : Option Packet :=
  order.acknowledged.or order.timedOut

/-- The packets of a channel's orders in a run, the last one first. -/
def Hashes.packets (d : Hashes) (of : SpendChannelRedeemer → Option Packet) (n : AssetName)
    (past : History) : List Packet :=
  past.filterMap fun e => (d.orderFor n e.2).bind of

/-- The sequences from 1 on. -/
def firstSequences (k : Nat) : List Int := (List.range k).map fun i : Nat => (i : Int) + 1

theorem firstSequences_succ (k : Nat) :
    firstSequences (k + 1) = firstSequences k ++ [(k : Int) + 1] := by
  simp [firstSequences, List.range_succ]

/-- Each transaction of a run goes with what was before it. -/
def Throughout (P : Ledger × Transaction → History → Prop) : History → Prop
  | [] => True
  | e :: past => P e past ∧ Throughout P past

/-- What the transaction acknowledges or times out was sent before. -/
def SentBefore [Builtins] (d : Hashes) (n : AssetName) (e : Ledger × Transaction)
    (earlier : History) : Prop :=
  ∀ packet, (d.orderFor n e.2).bind SpendChannelRedeemer.resolved = some packet →
    ∃ sent ∈ d.packets SpendChannelRedeemer.sent n earlier, sent.sequence = packet.sequence ∧
      cardano_ibc.packet.commit_packet sent = cardano_ibc.packet.commit_packet packet

/-- Some transaction timed a packet out. -/
def TimedOut (d : Hashes) (n : AssetName) (e : Ledger × Transaction) : Prop :=
  (d.orderFor n e.2).bind SpendChannelRedeemer.timedOut ≠ none

section Logs

variable {d : Hashes} {of : SpendChannelRedeemer → Option Packet} {n : AssetName}
  {e : Ledger × Transaction} {past : History} {order : SpendChannelRedeemer} {packet : Packet}

theorem packets_cons_some (horder : d.orderFor n e.2 = some order)
    (hof : of order = some packet) :
    d.packets of n (e :: past) = packet :: d.packets of n past := by
  simp [Hashes.packets, horder, hof]

theorem packets_cons_none (horder : d.orderFor n e.2 = some order) (hof : of order = none) :
    d.packets of n (e :: past) = d.packets of n past := by
  simp [Hashes.packets, horder, hof]

theorem packets_cons_unordered (horder : d.orderFor n e.2 = none) :
    d.packets of n (e :: past) = d.packets of n past := by
  simp [Hashes.packets, horder]

end Logs

/-! ## What holds of the packets and the record -/

/-- What was sent, acknowledged and timed out on a channel so far, and the record it left. -/
structure Outgoing [Builtins] (d : Hashes) (n : AssetName) (past : History) (c : ChannelDatum) :
    Prop where
  wellFormed : WellFormed c.state
  sent_once : ((d.packets SpendChannelRedeemer.sent n past).map Packet.sequence).Nodup
  sent_below : ∀ q ∈ d.packets SpendChannelRedeemer.sent n past,
    q.sequence < c.state.next_sequence_send
  committed : ∀ e ∈ c.state.packet_commitment,
    ∃ q ∈ d.packets SpendChannelRedeemer.sent n past, q.sequence = e.1 ∧
      cardano_ibc.packet.commit_packet q = some e.2
  resolved_once : ((d.packets SpendChannelRedeemer.resolved n past).map Packet.sequence).Nodup
  resolved_gone : ∀ q ∈ d.packets SpendChannelRedeemer.resolved n past,
    q.sequence < c.state.next_sequence_send ∧ q.sequence ∉ sequences c.state.packet_commitment
  resolved_after : Throughout (SentBefore d n) past
  in_order : c.state.channel.ordering = .Ordered →
    ((d.packets SpendChannelRedeemer.acknowledged n past).map Packet.sequence).reverse =
      firstSequences (c.state.next_sequence_ack - 1).toNat
  closed : c.state.channel.ordering = .Ordered → (∃ e ∈ past, TimedOut d n e) →
    c.state.channel.state = .Closed
  silent : c.state.channel.ordering = .Ordered →
    past.Pairwise fun later earlier => TimedOut d n earlier → d.orderFor n later.2 = none

section Steps

variable [Builtins] {d : Deployment} {n : AssetName} {past : History} {L : Ledger}
  {tx : Transaction} {c c' : ChannelDatum} {order : SpendChannelRedeemer} {packet : Packet}

omit [Builtins] in
theorem packets_of_unordered (hnone : ∀ e ∈ past, d.orderFor n e.2 = none)
    (of : SpendChannelRedeemer → Option Packet) : d.packets of n past = [] := by
  rw [Hashes.packets, List.filterMap_eq_nil_iff]
  intro e he
  rw [hnone e he]
  rfl

theorem sentBefore_of_unordered (hnone : ∀ e ∈ past, d.orderFor n e.2 = none) :
    Throughout (SentBefore d.toHashes n) past := by
  induction past with
  | nil => trivial
  | cons e past ih =>
    refine ⟨?_, ih fun e he => hnone e (List.mem_cons_of_mem _ he)⟩
    intro packet hresolved
    rw [hnone e List.mem_cons_self] at hresolved
    cases hresolved

/-- A channel starts with no packets. -/
theorem Outgoing.start (hopens : Opens c) (hnone : ∀ e ∈ past, d.orderFor n e.2 = none) :
    Outgoing d.toHashes n past c := by
  have hempty := packets_of_unordered hnone
  have hfresh := hopens.fresh
  simp only [channel_datum.isFresh, Bool.and_eq_true, beq_iff_eq, List.isEmpty_iff] at hfresh
  obtain ⟨⟨⟨⟨⟨-, -⟩, hack⟩, -⟩, -⟩, ⟨hcommitment, -⟩, -⟩ := hfresh
  have hafter := sentBefore_of_unordered hnone
  have hquiet : ∀ e ∈ past, ¬ TimedOut d.toHashes n e := by
    intro e he htimeout
    rw [TimedOut, hnone e he] at htimeout
    exact htimeout rfl
  refine ⟨hopens.wellFormed, by simp [hempty], by simp [hempty], by simp [hcommitment],
    by simp [hempty], by simp [hempty], hafter, fun _ => by simp [hempty, hack, firstSequences], ?_, ?_⟩
  · rintro - ⟨e, he, htimeout⟩
    exact absurd htimeout (hquiet e he)
  · intro _
    exact List.pairwise_of_forall_mem_list fun later _ earlier hearlier htimeout =>
      absurd htimeout (hquiet earlier hearlier)

/-- A channel that a packet timed out on is ordered no more where it is an ordered one. -/
theorem Outgoing.silent_step (o : Outgoing d.toHashes n past c)
    (hordering : c'.state.channel.ordering = c.state.channel.ordering)
    (hopen : d.orderFor n tx = none ∨ c.state.channel.state ≠ .Closed) :
    c'.state.channel.ordering = .Ordered → ((L, tx) :: past).Pairwise fun later earlier =>
      TimedOut d.toHashes n earlier → d.orderFor n later.2 = none := by
  intro hordered
  rw [hordering] at hordered
  refine List.pairwise_cons.mpr ⟨fun earlier hearlier htimeout => ?_, o.silent hordered⟩
  rcases hopen with hnone | hopen
  · exact hnone
  · exact absurd (o.closed hordered ⟨earlier, hearlier, htimeout⟩) hopen

theorem Outgoing.closed_step (o : Outgoing d.toHashes n past c)
    (hordering : c'.state.channel.ordering = c.state.channel.ordering)
    (hopen : c' = c ∨ c.state.channel.state ≠ .Closed)
    (hself : TimedOut d.toHashes n (L, tx) → c'.state.channel.ordering = .Ordered →
      c'.state.channel.state = .Closed) :
    c'.state.channel.ordering = .Ordered → (∃ e ∈ (L, tx) :: past, TimedOut d.toHashes n e) →
      c'.state.channel.state = .Closed := by
  rintro hordered ⟨e, he, htimeout⟩
  rcases List.mem_cons.mp he with rfl | he
  · exact hself htimeout hordered
  · have hclosed := o.closed (hordering ▸ hordered) ⟨e, he, htimeout⟩
    rcases hopen with rfl | hopen
    · exact hclosed
    · exact absurd hclosed hopen

/-- The record's outbound side is as before. -/
structure SameOutbound (c c' : ChannelDatum) : Prop where
  ordering : c'.state.channel.ordering = c.state.channel.ordering
  send : c'.state.next_sequence_send = c.state.next_sequence_send
  ack : c'.state.next_sequence_ack = c.state.next_sequence_ack
  commitments : c'.state.packet_commitment = c.state.packet_commitment

/-- A transaction that leaves the channel alone. -/
theorem Outgoing.stays (o : Outgoing d.toHashes n past c) (hnone : d.orderFor n tx = none) :
    Outgoing d.toHashes n ((L, tx) :: past) c := by
  have hlog : ∀ of, d.packets of n ((L, tx) :: past) = d.packets of n past :=
    fun of => packets_cons_unordered hnone
  have hself : ¬ TimedOut d.toHashes n (L, tx) := by
    rw [TimedOut, hnone]
    exact fun h => h rfl
  refine ⟨o.wellFormed, ?_, ?_, ?_, ?_, ?_, ⟨?_, o.resolved_after⟩, ?_,
    o.closed_step rfl (.inl rfl) fun h => absurd h hself, o.silent_step rfl (.inl hnone)⟩
  · rw [hlog]; exact o.sent_once
  · rw [hlog]; exact o.sent_below
  · rw [hlog]; exact o.committed
  · rw [hlog]; exact o.resolved_once
  · rw [hlog]; exact o.resolved_gone
  · intro packet hresolved
    rw [hnone] at hresolved
    cases hresolved
  · rw [hlog]; exact o.in_order

/-- An operation that is not about outbound packets. -/
theorem Outgoing.other (o : Outgoing d.toHashes n past c) (hw : WellFormed c'.state)
    (horder : d.orderFor n tx = some order) (hsent : order.sent = none)
    (hresolved : order.resolved = none) (hsame : SameOutbound c c')
    (hopen : c.state.channel.state ≠ .Closed) :
    Outgoing d.toHashes n ((L, tx) :: past) c' := by
  obtain ⟨hacknowledged, htimedOut⟩ : order.acknowledged = none ∧ order.timedOut = none := by
    simpa [SpendChannelRedeemer.resolved] using hresolved
  have hself : ¬ TimedOut d.toHashes n (L, tx) := by
    rw [TimedOut, horder, Option.bind_some, htimedOut]
    exact fun h => h rfl
  refine ⟨hw, ?_, ?_, ?_, ?_, ?_, ⟨?_, o.resolved_after⟩, ?_,
    o.closed_step hsame.ordering (.inr hopen) fun h => absurd h hself,
    o.silent_step hsame.ordering (.inr hopen)⟩
  · rw [packets_cons_none horder hsent]; exact o.sent_once
  · rw [packets_cons_none horder hsent, hsame.send]; exact o.sent_below
  · rw [packets_cons_none horder hsent, hsame.commitments]; exact o.committed
  · rw [packets_cons_none horder hresolved]; exact o.resolved_once
  · rw [packets_cons_none horder hresolved, hsame.send, hsame.commitments]
    exact o.resolved_gone
  · intro packet hpacket
    rw [horder, Option.bind_some, hresolved] at hpacket
    cases hpacket
  · rw [packets_cons_none horder hacknowledged, hsame.ack, hsame.ordering]
    exact o.in_order

theorem Outgoing.send {commitment : Bytes} (o : Outgoing d.toHashes n past c)
    (hw : WellFormed (channel_datum.sent c packet commitment).state)
    (horder : d.orderFor n tx = some (.SendPacket packet)) (hopen : c.state.channel.state = .Open)
    (hnext : packet.sequence = c.state.next_sequence_send)
    (hcommitted : cardano_ibc.packet.commit_packet packet = some commitment) :
    Outgoing d.toHashes n ((L, tx) :: past) (channel_datum.sent c packet commitment) := by
  have hnew : packet.sequence ∉ c.state.packet_commitment.map Prod.fst := by
    intro hmem
    have := (o.wellFormed.commitments_sent _ hmem).2
    omega
  have hnotClosed : c.state.channel.state ≠ .Closed := by
    rw [hopen]
    nofun
  have hself : ¬ TimedOut d.toHashes n (L, tx) := by
    rw [TimedOut, horder]
    exact fun h => h rfl
  refine ⟨hw, ?_, ?_, ?_, ?_, ?_, ⟨?_, o.resolved_after⟩, ?_,
    o.closed_step rfl (.inr hnotClosed) fun h => absurd h hself,
    o.silent_step rfl (.inr hnotClosed)⟩
  · rw [packets_cons_some horder rfl, List.map_cons, List.nodup_cons]
    refine ⟨fun hmem => ?_, o.sent_once⟩
    obtain ⟨q, hq, hsame⟩ := List.mem_map.mp hmem
    have := o.sent_below q hq
    omega
  · rw [packets_cons_some horder rfl]
    show ∀ q ∈ packet :: _, q.sequence < c.state.next_sequence_send + 1
    intro q hq
    rcases List.mem_cons.mp hq with rfl | hq
    · omega
    · have := o.sent_below q hq
      omega
  · rw [packets_cons_some horder rfl]
    intro e he
    rcases List.mem_cons.mp ((pairs.perm_insert_by_ascending_key hnew).mem_iff.mp he) with rfl | he
    · exact ⟨packet, List.mem_cons_self, rfl, hcommitted⟩
    · obtain ⟨q, hq, hsame⟩ := o.committed e he
      exact ⟨q, List.mem_cons_of_mem _ hq, hsame⟩
  · rw [packets_cons_none horder rfl]
    exact o.resolved_once
  · rw [packets_cons_none horder rfl]
    intro q hq
    obtain ⟨hbelow, hgone⟩ := o.resolved_gone q hq
    show q.sequence < c.state.next_sequence_send + 1 ∧ _
    refine ⟨by omega, fun hmem => ?_⟩
    rcases (pairs.mem_keys_insert_by_ascending_key hnew).mp hmem with hsame | hmem
    · omega
    · exact hgone hmem
  · intro q hq
    rw [horder] at hq
    cases hq
  · rw [packets_cons_none horder rfl]
    exact o.in_order

/-- What an acknowledgement and a timeout have in common. -/
structure Resolves (c c' : ChannelDatum) (packet : Packet) : Prop where
  pending : Pending c packet
  ordering : c'.state.channel.ordering = c.state.channel.ordering
  send : c'.state.next_sequence_send = c.state.next_sequence_send
  commitments : c'.state.packet_commitment =
    pairs.delete_first c.state.packet_commitment packet.sequence

/-- A packet that is resolved is committed to until then. -/
theorem Outgoing.resolve (o : Outgoing d.toHashes n past c) (hw : WellFormed c'.state)
    (horder : d.orderFor n tx = some order) (hsent : order.sent = none)
    (hresolved : order.resolved = some packet) (hresolves : Resolves c c' packet)
    (hopen : c.state.channel.state = .Open)
    (hclosed : TimedOut d.toHashes n (L, tx) → c'.state.channel.ordering = .Ordered →
      c'.state.channel.state = .Closed)
    (hin_order : c'.state.channel.ordering = .Ordered →
      ((d.packets SpendChannelRedeemer.acknowledged n ((L, tx) :: past)).map
          Packet.sequence).reverse =
        firstSequences (c'.state.next_sequence_ack - 1).toNat) :
    Outgoing d.toHashes n ((L, tx) :: past) c' := by
  obtain ⟨commitment, hpending, hcommitted⟩ := hresolves.pending.committed
  have hentry := mem_of_get_first hpending
  have hkey : packet.sequence ∈ sequences c.state.packet_commitment :=
    List.mem_map.mpr ⟨_, hentry, rfl⟩
  have hnodup := nodup_of_ascending o.wellFormed.commitments_ascend
  have hnotClosed : c.state.channel.state ≠ .Closed := by
    rw [hopen]
    nofun
  refine ⟨hw, ?_, ?_, ?_, ?_, ?_, ⟨?_, o.resolved_after⟩, hin_order,
    o.closed_step hresolves.ordering (.inr hnotClosed) hclosed,
    o.silent_step hresolves.ordering (.inr hnotClosed)⟩
  · rw [packets_cons_none horder hsent]
    exact o.sent_once
  · rw [packets_cons_none horder hsent, hresolves.send]
    exact o.sent_below
  · rw [packets_cons_none horder hsent, hresolves.commitments]
    exact fun e he => o.committed e ((pairs.delete_first_sublist _ _).subset he)
  · rw [packets_cons_some horder hresolved, List.map_cons, List.nodup_cons]
    refine ⟨fun hmem => ?_, o.resolved_once⟩
    obtain ⟨q, hq, hsame⟩ := List.mem_map.mp hmem
    exact (o.resolved_gone q hq).2 (hsame ▸ hkey)
  · rw [packets_cons_some horder hresolved, hresolves.send, hresolves.commitments]
    intro q hq
    rw [sequences, pairs.mem_keys_delete_first_iff hnodup]
    rcases List.mem_cons.mp hq with rfl | hq
    · exact ⟨(o.wellFormed.commitments_sent _ hkey).2, fun h => h.2 rfl⟩
    · exact ⟨(o.resolved_gone q hq).1, fun h => (o.resolved_gone q hq).2 h.1⟩
  · intro q hq
    rw [horder, Option.bind_some, hresolved] at hq
    injection hq with hq
    subst hq
    obtain ⟨sent, hsent, hsequence, hsame⟩ := o.committed _ hentry
    exact ⟨sent, hsent, hsequence, hsame.trans hcommitted.symm⟩

theorem Outgoing.acknowledge {ack : Bytes} {proof : MerkleProof} {proof_height : Height}
    (o : Outgoing d.toHashes n past c)
    (hw : WellFormed (channel_datum.acknowledged c packet).state)
    (horder : d.orderFor n tx = some (.AcknowledgePacket packet ack proof proof_height))
    (hopen : c.state.channel.state = .Open) (hpending : Pending c packet)
    (hsequence : c.state.channel.ordering = .Ordered →
      packet.sequence = c.state.next_sequence_ack) :
    Outgoing d.toHashes n ((L, tx) :: past) (channel_datum.acknowledged c packet) := by
  refine o.resolve hw horder rfl rfl ⟨hpending, rfl, rfl, rfl⟩ hopen ?_ ?_
  · intro htimeout
    rw [TimedOut, horder] at htimeout
    exact absurd rfl htimeout
  · intro hordered
    have hbegun := o.wellFormed.begun.2.1
    have hordered : c.state.channel.ordering = .Ordered := hordered
    have hnext := hsequence hordered
    have hone : (c.state.next_sequence_ack + 1 - 1).toNat =
        (c.state.next_sequence_ack - 1).toNat + 1 := by omega
    have hself : ((c.state.next_sequence_ack - 1).toNat : Int) + 1 = packet.sequence := by omega
    rw [packets_cons_some horder rfl, List.map_cons, List.reverse_cons, o.in_order hordered]
    simp only [channel_datum.acknowledged, if_pos hordered]
    rw [hone, firstSequences_succ, hself]

theorem Outgoing.timeout {proof : MerkleProof} {proof_height : Height} {next_sequence_recv : Int}
    (o : Outgoing d.toHashes n past c)
    (hw : WellFormed (channel_datum.timedOut c packet).state)
    (horder : d.orderFor n tx =
      some (.TimeoutPacket packet proof proof_height next_sequence_recv))
    (hopen : c.state.channel.state = .Open) (hpending : Pending c packet) :
    Outgoing d.toHashes n ((L, tx) :: past) (channel_datum.timedOut c packet) := by
  refine o.resolve hw horder rfl rfl ⟨hpending, rfl, rfl, rfl⟩ hopen ?_ ?_
  · intro _ hordered
    exact if_pos hordered
  · rw [packets_cons_none horder rfl]
    exact o.in_order

/-- Every move of the channel keeps its packets in order. -/
theorem Outgoing.step (o : Outgoing d.toHashes n past c)
    (hmove : ChannelMove d.toHashes n tx c c') :
    Outgoing d.toHashes n ((L, tx) :: past) c' := by
  have hw := hmove.wellFormed o.wellFormed
  cases hmove with
  | stays hnone => exact o.stays hnone
  | @moves op _ _ _ _ hordered reads performs =>
    have hopen := performs.not_closed
    cases performs with
    | openAck h =>
      obtain ⟨_, _, _, hredeemer⟩ := h.ordered
      rw [hredeemer] at hordered
      refine o.other hw hordered rfl rfl ?_ hopen
      rw [h.effect]
      exact ⟨rfl, rfl, rfl, rfl⟩
    | send h =>
      rw [h.ordered] at hordered
      rw [h.effect] at hw ⊢
      exact o.send hw hordered h.is_open h.next h.committed
    | recv h =>
      rw [h.ordered] at hordered
      refine o.other hw hordered rfl rfl ?_ hopen
      rcases channel_datum.received_cases h.effect with ⟨-, heq⟩ | ⟨-, heq⟩
      all_goals
        rw [heq]
        exact ⟨rfl, rfl, rfl, rfl⟩
    | acknowledge h =>
      rw [h.ordered] at hordered
      rw [h.effect] at hw ⊢
      exact o.acknowledge hw hordered h.is_open
        ⟨outbound_of_isOutbound reads h.outbound, _, h.pending, h.committed⟩ h.sequence
    | timeout h =>
      obtain ⟨_, _, _, hredeemer⟩ := h.ordered
      rw [hredeemer] at hordered
      rw [h.effect] at hw ⊢
      exact o.timeout hw hordered h.is_open
        ⟨outbound_of_isOutbound reads h.outbound, _, h.pending, h.committed⟩
    | prune h =>
      rw [h.ordered] at hordered
      refine o.other hw hordered rfl rfl ?_ hopen
      rw [h.effect]
      exact ⟨rfl, rfl, rfl, rfl⟩

end Steps

/-! ## Runs -/

section Runs

variable [Builtins] {d : Deployment} {n : AssetName} {start L : Ledger} {past : History}
  {host : Input} {hd : HostStateDatum}

theorem Threads.exists_channel (t : Threads d.toHashes L host hd) {u : Input}
    (hu : u ∈ L.utxos) (hheld : 0 < amount (d.policy .channel) n u) :
    ∃ c, d.Record .channel L n (.channel c) := by
  obtain ⟨data, _, object⟩ := t.objects .channel u hu n hheld
  have hnames := object.names
  cases data with
  | channel c => exact ⟨c, u, hu, hheld, object.datum⟩
  | _ => cases hnames

/-- A channel that is not there yet has no orders, and one that is there has its packets in
order. -/
theorem Run.outgoing (t : Threads d.toHashes start host hd)
    (hlater : ∀ u ∈ start.utxos, ¬ 0 < amount (d.policy .channel) n u)
    (hrun : Run d start past L) :
    ((∀ u ∈ L.utxos, ¬ 0 < amount (d.policy .channel) n u) ∧
        ∀ e ∈ past, d.orderFor n e.2 = none) ∨
      ∃ c, d.Record .channel L n (.channel c) ∧ Outgoing d.toHashes n past c := by
  induction hrun with
  | start => exact .inl ⟨hlater, nofun⟩
  | @step past L tx before h notFinal ih =>
    obtain ⟨host, hd, t⟩ := before.threads t
    rcases ih with ⟨hfree, hnone⟩ | ⟨c, hrecord, o⟩
    · have hself : d.orderFor n tx = none :=
        orderFor_of_unspent fun i hi => hfree i (h.inputs_live i hi)
      have hnone' : ∀ e ∈ (L, tx) :: past, d.orderFor n e.2 = none := by
        intro e he
        rcases List.mem_cons.mp he with rfl | he
        · exact hself
        · exact hnone e he
      by_cases hthere : ∃ u ∈ (L.apply tx h).utxos, 0 < amount (d.policy .channel) n u
      · -- the token is there by this transaction, which creates the channel
        obtain ⟨u, hu, hheld⟩ := hthere
        obtain ⟨_, _, t'⟩ := Run.threads t (.step .start h notFinal)
        obtain ⟨c, hrecord⟩ := t'.exists_channel hu hheld
        refine .inr ⟨c, hrecord, ?_⟩
        rcases t.channel_origin h hrecord with ⟨_, ⟨v, hv, hheld', -⟩, -⟩ | hopened
        · exact absurd hheld' (hfree v hv)
        · exact .start hopened.opens hnone'
      · exact .inl ⟨fun u hu hheld => hthere ⟨u, hu, hheld⟩, hnone'⟩
    · obtain ⟨c', hmove, hafter⟩ := t.channel_step h hrecord
      exact .inr ⟨c', hafter, o.step hmove⟩

end Runs

section Sample

local instance outgoingBuiltins : Builtins := runningBuiltins

end Sample

end cardano_ibc
