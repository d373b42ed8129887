-- Exactly-once receive. A receipt stands for a packet that was received until it is pruned; from
-- then on the heights of the proofs keep the packet out, as its commitment is gone by then.
import CardanoIbc.Channel.Moves

namespace cardano_ibc

/-- The sequence of the packet that an order receives. -/
def SpendChannelRedeemer.received : SpendChannelRedeemer → Option Int
  | .RecvPacket packet _ _ => some packet.sequence
  | _ => none

/-- The sequences received on a channel, the last one first. -/
def Hashes.received (d : Hashes) (n : AssetName) (past : History) : List Int :=
  past.filterMap fun e => (d.orderFor n e.2).bind SpendChannelRedeemer.received

/-- A commitment that was there and is gone does not come back: it is deleted once, and its
sequence is not used again. -/
def NoReuse (store : Store) : Prop :=
  ∀ (port channel : Bytes) (s : Int) (h₁ h₂ h₃ : Height), height.compare h₁ h₂ ≠ .gt →
    height.compare h₂ h₃ ≠ .gt → store h₁ (packet_commitment_path port channel s) ≠ none →
    store h₂ (packet_commitment_path port channel s) = none →
    store h₃ (packet_commitment_path port channel s) = none

/-! ## What keeps a received packet out -/

/-- Where the counterparty of a channel commits to the packet with this sequence. -/
def ChannelDatum.sourcePath (c : ChannelDatum) (s : Int) : Bytes :=
  packet_commitment_path c.state.channel.counterparty.port_id
    c.state.channel.counterparty.channel_id s

/-- The packet is behind the next one of an ordered channel; or its receipt is there, and its
commitment was there at a height up to the greatest of a proof; or its commitment was gone at a
height up to the least that a proof may have. -/
def Settled (store : Store) (c : ChannelDatum) (s : Int) : Prop :=
  (c.state.channel.ordering = .Ordered ∧ s < c.state.next_sequence_recv) ∨
  (s ∈ c.state.packet_receipt.map Prod.fst ∧
    ∃ h, height.compare h c.state.maximum_receive_proof_height ≠ .gt ∧
      store h (c.sourcePath s) ≠ none) ∨
  ∃ h h', height.compare h h' ≠ .gt ∧
    height.compare h' c.state.minimum_receive_proof_height ≠ .gt ∧
    store h (c.sourcePath s) ≠ none ∧ store h' (c.sourcePath s) = none

section Receive

variable [Builtins] {store : Store} {policies : Policies} {tx : Transaction} {op : Operation}

/-- A packet that is settled is not received. -/
theorem Receives.not_settled {packet : Packet} {proof : MerkleProof} {proof_height : Height}
    {ack : Acknowledgement} (hstore : NoReuse store)
    (h : Receives policies tx op packet proof proof_height ack)
    (hpresent : store proof_height (op.datum.sourcePath packet.sequence) ≠ none) :
    ¬ Settled store op.datum packet.sequence := by
  rintro (⟨hordered, hlt⟩ | ⟨hreceipt, -⟩ | ⟨h₁, h₂, hle, hmin, hthere, hgone⟩)
  · have := h.sequence hordered
    omega
  · exact has_key_eq_false_iff.mp h.no_receipt hreceipt
  · have hlater : height.compare h₂ proof_height ≠ .gt :=
      height.le_trans hmin (height.compare_ne_lt_iff.mp h.fresh_proof)
    exact hpresent (hstore _ _ _ h₁ h₂ proof_height hle hlater hthere hgone)

/-- A packet that is received is settled by it, and those settled before stay so. -/
theorem Receives.settles {packet : Packet} {proof : MerkleProof} {proof_height : Height}
    {ack : Acknowledgement} (h : Receives policies tx op packet proof proof_height ack)
    (hpresent : store proof_height (op.datum.sourcePath packet.sequence) ≠ none) {s : Int}
    (hs : s = packet.sequence ∨ Settled store op.datum s) : Settled store op.updated_datum s := by
  have hmax := channel_datum.le_maxHeight proof_height op.datum.state.maximum_receive_proof_height
  rcases channel_datum.received_cases h.effect with ⟨hordered, heq⟩ | ⟨hunordered, heq⟩
  · rw [heq]
    rcases hs with rfl | ⟨-, hlt⟩ | ⟨hreceipt, h₁, hle, hthere⟩ | hpruned
    · refine .inl ⟨hordered, ?_⟩
      show packet.sequence < op.datum.state.next_sequence_recv + 1
      have := h.sequence hordered
      omega
    · refine .inl ⟨hordered, ?_⟩
      show s < op.datum.state.next_sequence_recv + 1
      omega
    · exact .inr (.inl ⟨hreceipt, h₁, height.le_trans hle hmax.2, hthere⟩)
    · exact .inr (.inr hpruned)
  · rw [heq]
    rcases hs with rfl | ⟨hordered, -⟩ | ⟨hreceipt, h₁, hle, hthere⟩ | hpruned
    · exact .inr (.inl ⟨List.mem_cons_self, proof_height, hmax.1, hpresent⟩)
    · rw [hunordered] at hordered
      cases hordered
    · exact .inr (.inl ⟨List.mem_cons_of_mem _ hreceipt, h₁, height.le_trans hle hmax.2, hthere⟩)
    · exact .inr (.inr hpruned)

omit [Builtins] in
/-- Pruning a packet leaves it settled by the height of its proof. -/
theorem Prunes.keeps_settled {sequence : Int} {proof : MerkleProof} {proof_height : Height}
    (h : Prunes policies tx op sequence proof proof_height)
    (habsent : store proof_height (op.datum.sourcePath sequence) = none) {s : Int}
    (hs : Settled store op.datum s) : Settled store op.updated_datum s := by
  rw [h.effect]
  rcases hs with ⟨hordered, -⟩ | ⟨hreceipt, h₁, hle, hthere⟩ | ⟨h₁, h₂, hle, hmin, hthere, hgone⟩
  · rw [h.unordered] at hordered
    cases hordered
  · by_cases hsame : s = sequence
    · subst hsame
      exact .inr (.inr ⟨h₁, proof_height,
        height.le_trans hle (height.compare_ne_lt_iff.mp h.above_maximum),
        height.le_refl proof_height, hthere, habsent⟩)
    · refine .inr (.inl ⟨?_, h₁, hle, hthere⟩)
      exact pairs.mem_keys_delete_first hsame hreceipt
  · exact .inr (.inr ⟨h₁, h₂, hle,
      height.le_trans hmin (height.compare_ne_lt_iff.mp h.above_minimum), hthere, hgone⟩)

/-! ## Runs -/

/-- The proofs of a run for the client of the route are sound. -/
def TrackedOver (d : Hashes) (store : Store) (r : Route) (past : History) : Prop :=
  ∀ e ∈ past, ∀ client : ClientDatum, d.Record .client e.1 r.client (.client client) →
    Tracks d store r.prefixKey client.state e.2

/-- What holds of a channel's record after some transactions. -/
structure ReceiveInvariant (d : Hashes) (store : Store) (r : Route) (n : AssetName)
    (past : History) (L : Ledger) (c : ChannelDatum) : Prop where
  serves : r.Serves d L n
  hops : c.state.channel.connection_hops = [r.connection_id]
  once : (d.received n past).Nodup
  unopened : c.state.channel.state = .Init → d.received n past = []
  settled : ∀ s ∈ d.received n past, Settled store c s

variable {d : Deployment} {n : AssetName} {r : Route} {L start : Ledger} {past : History}
  {host : Input} {hd : HostStateDatum} {c : ChannelDatum}

omit [Builtins] in
theorem received_cons_none {e : Ledger × Transaction}
    (h : (d.orderFor n e.2).bind SpendChannelRedeemer.received = none) :
    d.received n (e :: past) = d.received n past := by
  simp [Hashes.received, h]

/-- An operation that receives nothing keeps the invariant, if it keeps what is settled. -/
theorem ReceiveInvariant.keep {e : Ledger × Transaction} {L' : Ledger} {c' : ChannelDatum}
    (hinv : ReceiveInvariant d.toHashes store r n past L c)
    (hnone : (d.orderFor n e.2).bind SpendChannelRedeemer.received = none)
    (hserves : r.Serves d.toHashes L' n)
    (hhops : c'.state.channel.connection_hops = c.state.channel.connection_hops)
    (hinit : c'.state.channel.state = .Init → c.state.channel.state = .Init)
    (hsettled : ∀ s, Settled store c s → Settled store c' s) :
    ReceiveInvariant d.toHashes store r n (e :: past) L' c' := by
  have hsame : d.received n (e :: past) = d.received n past := received_cons_none hnone
  refine ⟨hserves, hhops.trans hinv.hops, ?_, ?_, ?_⟩
  · rw [hsame]
    exact hinv.once
  · intro hc
    rw [hsame]
    exact hinv.unopened (hinit hc)
  · intro s hs
    rw [hsame] at hs
    exact hsettled s (hinv.settled s hs)

theorem ReceiveInvariant.step {c' : ChannelDatum} (hstore : NoReuse store)
    (hinv : ReceiveInvariant d.toHashes store r n past L c)
    (t : Threads d.toHashes L host hd) (h : d.Accepted L tx)
    (hrecord : d.Record .channel L n (.channel c))
    (htracks : ∀ client : ClientDatum, d.Record .client L r.client (.client client) →
      Tracks d.toHashes store r.prefixKey client.state tx)
    (hmove : ChannelMove d.toHashes n tx c c') :
    ReceiveInvariant d.toHashes store r n ((L, tx) :: past) (L.apply tx h) c' := by
  have hserves := hinv.serves.step t h
  cases hmove with
  | stays hleft =>
    exact hinv.keep (by simp [hleft]) hserves rfl id fun _ hs => hs
  | @moves op input connection_id connection client hordered hreads hperforms =>
    have hname : op.datum.token.name = n := by
      have := t.record_names hrecord
      simp only [Kind.tokenIn, Option.some.injEq] at this
      rw [this]
    obtain ⟨hstart, hclient, hknown⟩ := hinv.serves.reads t h hreads hname hinv.hops
    have htracked := htracks client hknown
    rw [← hclient] at htracked
    cases hperforms with
    | openAck hacks =>
      obtain ⟨_, _, _, horder⟩ := hacks.ordered
      have hnothing := hinv.unopened hacks.init
      have hsame : d.received n ((L, tx) :: past) = d.received n past :=
        received_cons_none (by simp [hordered, horder, SpendChannelRedeemer.received])
      refine ⟨hserves, ?_, ?_, ?_, ?_⟩
      · rw [hacks.effect]
        exact hinv.hops
      · rw [hsame]
        exact hinv.once
      · intro _
        rw [hsame, hnothing]
      · intro s hs
        rw [hsame, hnothing] at hs
        cases hs
    | send hsends =>
      refine hinv.keep (by simp [hordered, hsends.ordered, SpendChannelRedeemer.received])
        hserves ?_ ?_ ?_ <;> rw [hsends.effect]
      · rfl
      · exact id
      · exact fun _ hs => hs
    | @recv packet proof proof_height ack hreceives =>
      have hpresent : store proof_height (op.datum.sourcePath packet.sequence) ≠ none := by
        have hproven := hreceives.proven
        simp only [recv_packet.validate_recv_packet_proof, bind_eq_some] at hproven
        obtain ⟨commitment, -, hproven⟩ := hproven
        have := htracked.present_of_proved h hstart hproven
        rw [hreceives.source_port, hreceives.source_channel] at this
        rw [ChannelDatum.sourcePath, this]
        simp
      have hnew : d.received n ((L, tx) :: past) = packet.sequence :: d.received n past := by
        simp [Hashes.received, hordered, hreceives.ordered, SpendChannelRedeemer.received]
      have hchannel : op.updated_datum.state.channel = op.datum.state.channel := by
        rcases channel_datum.received_cases hreceives.effect with ⟨-, heq⟩ | ⟨-, heq⟩ <;>
          rw [heq] <;> rfl
      refine ⟨hserves, ?_, ?_, ?_, ?_⟩
      · rw [hchannel]
        exact hinv.hops
      · rw [hnew, List.nodup_cons]
        refine ⟨fun hmem => ?_, hinv.once⟩
        exact hreceives.not_settled hstore hpresent (hinv.settled _ hmem)
      · intro hinit
        rw [hchannel, hreceives.is_open] at hinit
        cases hinit
      · intro s hs
        rw [hnew, List.mem_cons] at hs
        exact hreceives.settles hpresent (hs.imp_right (hinv.settled s))
    | acknowledge hacknowledges =>
      refine hinv.keep (by simp [hordered, hacknowledges.ordered, SpendChannelRedeemer.received])
        hserves ?_ ?_ ?_ <;> rw [hacknowledges.effect]
      · rfl
      · exact id
      · exact fun _ hs => hs
    | timeout htimes =>
      obtain ⟨_, _, _, horder⟩ := htimes.ordered
      refine hinv.keep (by simp [hordered, horder, SpendChannelRedeemer.received])
        hserves ?_ ?_ ?_ <;> rw [htimes.effect]
      · rfl
      · intro hinit
        simp only [channel_datum.timedOut] at hinit
        split at hinit <;> cases hinit
      · exact fun _ hs => hs
    | @prune sequence proof proof_height hprunes =>
      have habsent : store proof_height (op.datum.sourcePath sequence) = none :=
        htracked.absent_of_proved h hstart hprunes.proven
      refine hinv.keep (by simp [hordered, hprunes.ordered, SpendChannelRedeemer.received])
        hserves ?_ ?_ fun s hs => hprunes.keeps_settled habsent hs
      · rw [hprunes.effect]
        rfl
      · rw [hprunes.effect]
        exact id

/-- No sequence is received twice on a channel, whatever is sent, acknowledged, timed out and
pruned on it in between. -/
theorem no_packet_is_received_twice (t : Threads d.toHashes start host hd)
    (hrecord : d.Record .channel start n (.channel c)) (hserves : r.Serves d.toHashes start n)
    (hhops : c.state.channel.connection_hops = [r.connection_id]) (hstore : NoReuse store)
    (hrun : Run d start past L) (htracked : TrackedOver d.toHashes store r past) :
    (d.received n past).Nodup := by
  have hstart : ReceiveInvariant d.toHashes store r n [] start c :=
    ⟨hserves, hhops, List.nodup_nil, fun _ => rfl, fun s hs => by cases hs⟩
  obtain ⟨c', -, hinv⟩ := hrun.channel_induction
    (motive := fun past L c => TrackedOver d.toHashes store r past →
      ReceiveInvariant d.toHashes store r n past L c) t hrecord (fun _ => hstart)
    (fun h ⟨_, _, t⟩ hrecord hmove ih htracked =>
      (ih fun e he => htracked e (List.mem_cons_of_mem _ he)).step hstore t h hrecord
        (htracked _ List.mem_cons_self) hmove)
  exact (hinv htracked).once

end Receive

/-- What is to be proved says which key under a store and which value it is about. -/
theorem membershipAt_inj {connection connection' : ConnectionEnd} {client client' : ClientDatumState}
    {proof_height proof_height' : Height} {proof proof' : MerkleProof}
    {key key' value value' : Bytes} {params : VerifyMembershipParams}
    (hstart : connection.counterparty.prefixKey = connection'.counterparty.prefixKey)
    (h : membershipAt connection client proof_height proof key value = some params)
    (h' : membershipAt connection' client' proof_height' proof' key' value' = some params) :
    key = key' ∧ value = value' := by
  simp only [membershipAt, merkle.apply_prefix, bind_eq_some, expect_eq_some, pure_eq_some] at h h'
  obtain ⟨_, -, path, ⟨_, -, rfl⟩, _, -, _, -, _, -, rfl⟩ := h
  obtain ⟨_, -, path', ⟨_, -, rfl⟩, _, -, _, -, _, -, hsame⟩ := h'
  simp only [merkle.new_merkle_path, hstart, VerifyMembershipParams.mk.injEq, MerklePath.mk.injEq,
    List.cons.injEq, true_and, and_true] at hsame
  exact ⟨hsame.2.2.2.2.2.2.2.2.1.symm, hsame.2.2.2.2.2.2.2.2.2.symm⟩

section Sample

local instance receiveBuiltins : Builtins := runningBuiltins

/-- A packet that the counterparty has sent. -/
def uatomPacket : Packet :=
  { sequence := 1
    source_port := utf8 "transfer"
    source_channel := utf8 "channel-7"
    destination_port := utf8 "transfer"
    destination_channel := utf8 "channel-0"
    data := utf8
      "\x7b\"amount\":\"1\",\"denom\":\"uatom\",\"receiver\":\"r\",\"sender\":\"s\"\x7d"
    timeout_height := height.zero_height
    timeout_timestamp := 2000000000 }

def uatomCommitment : Bytes :=
  bigEndian 32 0xb3737e6c4420af42c5d22efe8a9ffce43885b8c7635e34a879fc754a5f9a6f2f

def uatomPath : Bytes := packet_commitment_path (utf8 "transfer") (utf8 "channel-7") 1

def uatomProof : MerkleProof :=
  onlyEntryProof uatomPath uatomCommitment
    0xb96e160965ac84e84030a0bafbdbe4a22bd1fad9ab3f8718c8d521141b8bbc7e

def receiveOrder : SpendChannelRedeemer := .RecvPacket uatomPacket uatomProof (runningHeight 5)

def receiveHostOrder : HostStateRedeemer :=
  .HandlePacket [] [] [] [] []
    (siblingsFrom 61 [0x28578ebfb358677edb587c0fcb6e213d6a856ba9f3af371abfd3a054df0f69df,
      0x1ba5c0970adaffb6a3698c3571b37eacc923cae0912df27a9559b4c9d5b84344,
      0x36824c0c2a91a22fad8398f9fe4c024cf1680f4586f040262f85ab121e3dfe6a])
    (siblingsFrom 57 [0x324d4cdd76a79f109483dfca3d61389c11b1337cb83a5b7bcf312ca56afcc586, 0,
      0x18483b893489beab51dda6324056974b5396cbd0020a439a1fafe54912e436c9,
      0xd5d3b2f858081c462381d17cdef869ee4b5eb02a97be94c69567bc2a522fdf9f,
      0xe43ebbca21ddd74d0219b5949fefe1112e5f828f62048b9363edd68dc05918ad,
      0xe0b75a7400eb8cafb09d9fb7d7fe52839790e4fcd5ac28b2fb30fc3569833df9,
      0x36824c0c2a91a22fad8398f9fe4c024cf1680f4586f040262f85ab121e3dfe6a])

def receiveAck : Bytes :=
  bigEndian 32 0x08f7557ed51826fe18d84512bf24ec75001edbaf2123a477df72a0a9f3640a7c

def receiveParams : Option VerifyMembershipParams :=
  membershipAt runningConnection.state runningClient.state (runningHeight 5) uatomProof uatomPath
    uatomCommitment

def receivedChannel : ChannelDatum :=
  { runningOpenChannel with
    state :=
      { runningOpenChannel.state with
        packet_receipt := [(1, [])]
        packet_acknowledgement := [(1, receiveAck)]
        maximum_receive_proof_height := runningHeight 5 } }

def receiveTx : Transaction :=
  { inputs := [runningHostInput, runningChannelInput, runningModule, sampleWallet]
    reference_inputs := [runningConnectionInput, runningClientInput]
    outputs := [sampleHostOutput (runningHostDatum 5 1
        (bigEndian 32 0x0ac738edb965f61ac7cac31c8254025b1a008dfd5a6e124061d66f691fab2c2f)),
      runningChannelOutput receivedChannel,
      runningModule.output,
      { sampleWallet.output with
        value := [lovelace 9800000, (sampleBridge.recv_packet, [], 1),
          (sampleBridge.verify_proof, [], 1)] }]
    fee := 200000
    mint := [(sampleBridge.recv_packet, [], 1), (sampleBridge.verify_proof, [], 1)]
    validity_range := runningValidity
    extra_signatories := []
    redeemers := [(.Spend runningHostInput.output_reference, .hostStateRedeemer receiveHostOrder),
      (.Spend runningChannelInput.output_reference, .spendChannelRedeemer receiveOrder),
      (.Spend runningModule.output_reference,
        .ibcModule (.Callback (.OnRecvPacket (utf8 "channel-0") uatomPacket.data
          (.AcknowledgementResult (utf8 "AQ==")) .OtherModuleData))),
      (.Mint sampleBridge.recv_packet, .authToken runningOpenChannel.token)] ++
      receiveParams.toList.map fun params =>
        (.Mint sampleBridge.verify_proof, .verifyProof (.VerifyMembership params))
    datums := []
    id := List.replicate 32 96 }

theorem receiveTx_accepted : sampleBridge.Accepted runningLedger receiveTx :=
  Ledger.accepts_iff.mp (by decide +kernel)

/-- The counterparty's store has the commitment and nothing else. -/
def uatomStore : Store := fun _ key => if key = uatomPath then some uatomCommitment else none

theorem receiveTx_tracked : TrackedOver sampleBridge.toHashes uatomStore runningRoute
    [(runningLedger, receiveTx)] := by
  intro e he client hclient
  obtain rfl := List.mem_singleton.mp he
  have hknown : sampleBridge.Record .client runningLedger runningRoute.client
      (.client runningClient) :=
    ⟨runningClientInput, by simp [runningLedger], by decide, rfl⟩
  have hsame := runningLedger_threads.record_unique hclient hknown
  injection hsame with hsame
  subst hsame
  have hredeemer : verifyProofRedeemer receiveTx.redeemers sampleBridge.verify_proof =
      receiveParams.map .VerifyMembership := by
    decide +kernel
  constructor
  · intro connection proof_height proof key value params _ _ hstart hparams hgiven _
    rw [hredeemer, Option.map_eq_some_iff] at hgiven
    obtain ⟨given, hgiven, hsame⟩ := hgiven
    injection hsame with hsame
    subst hsame
    obtain ⟨rfl, rfl⟩ := membershipAt_inj hstart hparams hgiven
    exact if_pos rfl
  · intro connection proof_height proof key params _ _ _ _ hgiven _
    rw [hredeemer, Option.map_eq_some_iff] at hgiven
    obtain ⟨_, -, hgiven⟩ := hgiven
    cases hgiven

/-- One packet was received so far. -/
theorem one_packet_is_received_once :
    sampleBridge.received runningOpenChannel.token.name [(runningLedger, receiveTx)] = [1] ∧
      (sampleBridge.received runningOpenChannel.token.name [(runningLedger, receiveTx)]).Nodup := by
  have hchannel : sampleBridge.Record .channel runningLedger runningOpenChannel.token.name
      (.channel runningOpenChannel) :=
    ⟨runningChannelInput, by simp [runningLedger], by decide, rfl⟩
  have hserves : runningRoute.Serves sampleBridge.toHashes runningLedger
      runningOpenChannel.token.name :=
    ⟨by decide, by decide, runningConnection,
      ⟨runningConnectionInput, by simp [runningLedger], by decide, rfl⟩, rfl, rfl⟩
  have hreuse : NoReuse uatomStore := fun _ _ _ _ _ _ _ _ _ hgone => hgone
  exact ⟨by decide, no_packet_is_received_twice runningLedger_threads hchannel hserves rfl hreuse
    (.step .start receiveTx_accepted (by decide)) receiveTx_tracked⟩

end Sample

end cardano_ibc
