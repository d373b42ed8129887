-- The records a channel has along a run of the ledger: every move is a step of the channel, so that
-- they are well formed from the channel's creation on, and a receipt is there by a transaction.
import CardanoIbc.Channel.Moves
import CardanoIbc.Channel.Transitions

namespace cardano_ibc

section Runs

variable [Builtins]

/-! ## Moves are steps -/

section Operations

variable {policies : Policies} {token : AuthToken} {tx : Transaction} {op : Operation}
  {input : Input} {connection_id : Bytes} {connection : ConnectionDatum} {client : ClientDatum}

theorem outbound_of_isOutbound {packet : Packet}
    (reads : Reads policies token tx op input connection_id connection client)
    (h : isOutbound op packet = true) : Outbound op.datum packet := by
  simp only [isOutbound, Bool.and_eq_true, beq_iff_eq] at h
  obtain ⟨⟨⟨hport, hchannel⟩, hport'⟩, hchannel'⟩ := h
  exact ⟨hport, hchannel ▸ reads.channel_id, hport', hchannel'⟩

/-- What an operation does to the record is a step of the channel. -/
theorem Performs.transition (h : Performs policies tx op)
    (reads : Reads policies token tx op input connection_id connection client) :
    Transition op.datum op.updated_datum := by
  cases h with
  | openAck h =>
    refine .openAck ?_
    simp only [channel_datum.validate_chan_open_ack, bind_eq_some, expect_eq_some, pure_eq_some,
      beq_iff_eq]
    exact ⟨(), h.init, (), h.identified, h.effect.symm⟩
  | send h =>
    exact .send h.is_open (outbound_of_isOutbound reads h.outbound) h.next h.committed
      (channel_datum.validate_send_packet_iff.mpr ⟨h.room, h.effect⟩)
  | recv h =>
    exact .recv h.is_open h.no_receipt h.no_acknowledgement
      (channel_datum.validate_recv_packet_iff.mpr ⟨h.sequence, h.fresh_proof, h.room, h.effect⟩)
  | acknowledge h =>
    exact .settle (.acknowledge h.is_open
      ⟨outbound_of_isOutbound reads h.outbound, _, h.pending, h.committed⟩ h.sequence
      (channel_datum.validate_acknowledge_packet_iff.mpr h.effect))
  | timeout h =>
    exact .settle (.timeout h.is_open
      ⟨outbound_of_isOutbound reads h.outbound, _, h.pending, h.committed⟩
      (channel_datum.validate_timeout_packet_iff.mpr h.effect))
  | prune h =>
    exact .settle (.prune h.is_open (channel_datum.validate_prune_packet_history_iff.mpr
      ⟨h.unordered, h.receipt, h.acknowledgement, h.above_minimum, h.above_maximum, h.effect⟩))

end Operations

/-! ## Runs -/

variable {d : Deployment} {start L L' : Ledger} {tx : Transaction} {past later : History}
  {n : AssetName} {host : Input} {hd : HostStateDatum} {c c' : ChannelDatum}

theorem ChannelMove.eq_or_transition (h : ChannelMove d.toHashes n tx c c') :
    c' = c ∨ Transition c c' := by
  cases h with
  | stays => exact .inl rfl
  | moves _ reads hperforms => exact .inr (hperforms.transition reads)

theorem ChannelMove.wellFormed (h : ChannelMove d.toHashes n tx c c') (hw : WellFormed c.state) :
    WellFormed c'.state := by
  rcases h.eq_or_transition with rfl | hstep
  · exact hw
  · exact hstep.wellFormed hw

theorem ChannelMove.evolves (h : ChannelMove d.toHashes n tx c c') (hw : WellFormed c.state) :
    Evolves c c' := by
  rcases h.eq_or_transition with rfl | hstep
  · exact .refl _
  · exact hstep.evolves hw

omit [Builtins] in
/-- Every receipt is there by a transaction that received the packet, by a proof no later than
the greatest height of one. -/
def ReceiptsAccepted (d : Hashes) (n : AssetName) (past : History) (c : ChannelDatum) : Prop :=
  ∀ k ∈ sequences c.state.packet_receipt, ∃ e ∈ past, ∃ packet proof proof_height,
    d.orderFor n e.2 = some (.RecvPacket packet proof proof_height) ∧ packet.sequence = k ∧
      height.compare proof_height c.state.maximum_receive_proof_height ≠ .gt

omit [Builtins] in
theorem ReceiptsAccepted.keep {e : Ledger × Transaction}
    (h : ReceiptsAccepted d.toHashes n past c)
    (hreceipts : ∀ k ∈ sequences c'.state.packet_receipt, k ∈ sequences c.state.packet_receipt)
    (hmax : height.compare c.state.maximum_receive_proof_height
      c'.state.maximum_receive_proof_height ≠ .gt) :
    ReceiptsAccepted d.toHashes n (e :: past) c' := by
  intro k hk
  obtain ⟨e', he', packet, proof, proof_height, horder, hsequence, hle⟩ := h k (hreceipts k hk)
  exact ⟨e', List.mem_cons_of_mem _ he', packet, proof, proof_height, horder, hsequence,
    height.le_trans hle hmax⟩

theorem ReceiptsAccepted.step (h : ReceiptsAccepted d.toHashes n past c)
    (hw : WellFormed c.state) (hmove : ChannelMove d.toHashes n tx c c') :
    ReceiptsAccepted d.toHashes n ((L, tx) :: past) c' := by
  have hmax := (hmove.evolves hw).maximum
  cases hmove with
  | stays => exact h.keep (fun _ hk => hk) hmax
  | @moves op _ _ _ _ hordered _ hperforms =>
    cases hperforms with
    | openAck hacks =>
      refine h.keep ?_ hmax
      rw [hacks.effect]
      exact fun _ hk => hk
    | send hsends =>
      refine h.keep ?_ hmax
      rw [hsends.effect]
      exact fun _ hk => hk
    | @recv packet proof proof_height _ hreceives =>
      rcases channel_datum.received_cases hreceives.effect with ⟨-, heq⟩ | ⟨-, heq⟩
      · rw [heq]
        exact h.keep (fun _ hk => hk) (heq ▸ hmax)
      · intro k hk
        rw [heq] at hk
        rcases List.mem_cons.mp hk with rfl | hk
        · refine ⟨(L, tx), List.mem_cons_self, packet, proof, proof_height,
            hordered.trans (by rw [hreceives.ordered]), rfl, ?_⟩
          rw [heq]
          exact (channel_datum.le_maxHeight _ _).1
        · obtain ⟨e, he, packet', proof', height', horder, hsequence, hle⟩ := h k hk
          exact ⟨e, List.mem_cons_of_mem _ he, packet', proof', height', horder, hsequence,
            height.le_trans hle hmax⟩
    | acknowledge hacknowledges =>
      refine h.keep ?_ hmax
      rw [hacknowledges.effect]
      exact fun _ hk => hk
    | timeout htimes =>
      refine h.keep ?_ hmax
      rw [htimes.effect]
      exact fun _ hk => hk
    | @prune sequence _ _ hprunes =>
      refine h.keep ?_ hmax
      rw [hprunes.effect]
      intro k hk
      exact ((pairs.delete_first_sublist op.datum.state.packet_receipt sequence).map _).subset hk

/-- What holds of a channel that was created after the start of a run. -/
theorem Run.channel_wellFormed (t : Threads d.toHashes start host hd)
    (hlater : ∀ u ∈ start.utxos, ¬ 0 < amount (d.policy .channel) n u) (hrun : Run d start past L)
    (hrecord : d.Record .channel L n (.channel c)) :
    WellFormed c.state ∧ ReceiptsAccepted d.toHashes n past c := by
  refine hrun.channel_history
    (motive := fun past c => WellFormed c.state ∧ ReceiptsAccepted d.toHashes n past c) t hlater
    ?_ ?_ hrecord
  · intro past L tx c _ hopened
    refine ⟨hopened.opens.wellFormed, fun k hk => ?_⟩
    have hfresh := hopened.opens.fresh
    simp only [channel_datum.isFresh, Bool.and_eq_true, List.isEmpty_iff] at hfresh
    rw [hfresh.2.1.2] at hk
    cases hk
  · rintro past L tx c c' _ _ hmove ⟨hw, haccepted⟩
    exact ⟨hmove.wellFormed hw, haccepted.step hw hmove⟩

/-- A record evolves over every run. -/
theorem Run.channel_evolves (t : Threads d.toHashes L host hd) (hw : WellFormed c.state)
    (hrecord : d.Record .channel L n (.channel c)) (hrun : Run d L later L')
    (hrecord' : d.Record .channel L' n (.channel c')) : Evolves c c' := by
  obtain ⟨c₁, hrecord₁, -, hevolves⟩ := hrun.channel_induction
    (motive := fun _ _ c₁ => WellFormed c₁.state ∧ Evolves c c₁) t hrecord ⟨hw, .refl c⟩
    (fun _ _ _ hmove ⟨hw, hevolves⟩ =>
      ⟨hmove.wellFormed hw, hevolves.trans (hmove.evolves hw)⟩)
  obtain ⟨_, _, t'⟩ := hrun.threads t
  have hsame := t'.record_unique hrecord₁ hrecord'
  injection hsame with hsame
  rw [← hsame]
  exact hevolves

end Runs

/-! ### A channel that is opened -/

section Sample

local instance wellFormedBuiltins : Builtins := runningBuiltins

def newChannel : ChannelDatum := runningChannel "1" .Init []

def newChannelOrder : HostStateRedeemer :=
  .CreateChannel
    (siblingsFrom 61 [0x66606c939628bf0fec4efd8aeba9827fd000fb28d15e697dcbe1e96b34cc2032,
      0x3398c66948bd6da0ce06c45c2e75ddcc6a6930e7e0229e0a571239df4a4e615b,
      0x1c6b2ef630f23c8b469c03aa60fd8639e17b7bd875589bd93847f539ed71b96d])
    (siblingsFrom 56 [0x4b8d83cbb087c3b041a394f2357cbbaf1195a865c44491d3ca64b5b2bd294b6d, 0, 0,
      0xf745ce0061fa1c765c41a4a5ac86a445fb7e85a0a64e3e894637446bcf49d0ff,
      0x98508c98ae254e37cd8d9892c3edc93058138782d285dfc741a90879a29d8395,
      0xe43ebbca21ddd74d0219b5949fefe1112e5f828f62048b9363edd68dc05918ad,
      0xc44cec3915e8af91e81fb8a9be0814b19529f419c53a3e5ecc1f02b7aab60ed5,
      0x74c363952b8bc2be3644d5761f99d84eb8e30b5222d32a473c91c2ddc052eb9d])
    (siblingsFrom 60 [0x805e18a8b436e465f143ae70a04bb0cc4ead8996eac583a83b7e4ce3dd702016,
      0x01ecbf2b115cc5603a36aacbc055a28b5f5ba80695ada78b6cea98ad0950f300,
      0x9dae646223b75c55b85fb7fa7d456a074d4e3fc3716a4a05df7035dbad458960,
      0x5c47dfd45314581c05178474b5d736ab4cb2b99123b38fbaf335b6f1812db042])
    (siblingsFrom 61 [0x28578ebfb358677edb587c0fcb6e213d6a856ba9f3af371abfd3a054df0f69df,
      0xb451fc54fe22c916942ffcb543d019b7612914ed3abb0d659233cf6f00879e1c,
      0xdf37e1af24ed8caf1f21d7e57a4d00355457a5d47ae85a4c65f812bbd5df375d])

/-- Somebody opens a second channel over the connection there is. -/
def newChannelTx : Transaction :=
  { inputs := [runningHostInput, sampleWallet, runningModule]
    reference_inputs := [runningConnectionInput, runningClientInput]
    outputs := [sampleHostOutput (runningHostDatum 5 2
        (bigEndian 32 0xb5b7607cc8555ec9dab5774cfe37bd9b9d2527b7f1f1e5970db7358e77d5d4de)),
      runningChannelOutput newChannel, runningModule.output, runningChange 7800000]
    fee := 200000
    mint := [(newChannel.token.policy_id, newChannel.token.name, 1)]
    validity_range := runningValidity
    extra_signatories := []
    redeemers := [(.Spend runningHostInput.output_reference, .hostStateRedeemer newChannelOrder),
      (.Spend runningModule.output_reference,
        .ibcModule (.Callback (.OnChanOpenInit (utf8 "channel-1")))),
      (.Mint sampleBridge.mint_channel, .mintChannelRedeemer .ChanOpenInit)]
    datums := []
    id := List.replicate 32 95 }

theorem newChannelTx_accepted : sampleBridge.Accepted runningLedger newChannelTx :=
  Ledger.accepts_iff.mp (by decide +kernel)

end Sample

end cardano_ibc
