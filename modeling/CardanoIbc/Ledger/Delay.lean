-- The delay of a connection: how long after a height was added to a client a proof at that height
-- can be used.
import CardanoIbc.Ledger.Clients

namespace cardano_ibc

open validator_utils

section Proofs

variable [Builtins]

/-! ## What a transaction proves -/

omit [Builtins] in
/-- The proof script is run for what the counterparty has, or has not, under a key at this height
of the client, with the delay of this connection. -/
inductive ProvesAt (redeemer : VerifyProofRedeemer) (connection : ConnectionEnd)
    (client : ClientDatumState) (height : Height) : Prop
  | membership {proof : MerkleProof} {key value : Bytes} {m : VerifyMembershipParams}
      (known : membershipAt connection client height proof key value = some m)
      (given : redeemer = .VerifyMembership m)
  | batch {proof : MerkleProof} {key value : Bytes} {m : VerifyMembershipParams}
      {items : List VerifyMembershipParams}
      (known : membershipAt connection client height proof key value = some m)
      (given : redeemer = .BatchVerifyMembership items) (listed : m ∈ items)
  | absence {proof : MerkleProof} {key : Bytes} {n : VerifyNonMembershipParams}
      (known : nonMembershipAt connection client height proof key = some n)
      (given : redeemer = .VerifyNonMembership n)

omit [Builtins] in
/-- The transaction runs the proof script for this height. -/
def Hashes.ProvesAt (d : Hashes) (tx : Transaction) (connection : ConnectionEnd)
    (client : ClientDatumState) (height : Height) : Prop :=
  ∃ redeemer, verifyProofRedeemer tx.redeemers d.verify_proof = some redeemer ∧
    cardano_ibc.ProvesAt redeemer connection client height

variable {d : Deployment} {L : Ledger} {tx : Transaction} {connection : ConnectionEnd}
  {client : ClientDatumState} {height : Height}

omit [Builtins] in
theorem provesAt_of_membership {proof : MerkleProof} {key value : Bytes}
    (h : provesMembership tx.redeemers d.verify_proof connection client height proof key value =
      some true) : d.ProvesAt tx connection client height := by
  simp only [provesMembership, bind_eq_some, pure_eq_some, beq_iff_eq] at h
  obtain ⟨redeemer, hredeemer, m, hm, rfl⟩ := h
  exact ⟨_, hredeemer, .membership hm rfl⟩

omit [Builtins] in
theorem provesAt_of_absence {proof : MerkleProof} {key : Bytes}
    (h : provesNonMembership tx.redeemers d.verify_proof connection client height proof key =
      some true) : d.ProvesAt tx connection client height := by
  simp only [provesNonMembership, bind_eq_some, pure_eq_some, beq_iff_eq] at h
  obtain ⟨redeemer, hredeemer, n, hn, rfl⟩ := h
  exact ⟨_, hredeemer, .absence hn rfl⟩

omit [Builtins] in
theorem provesAt_of_channel {datum : ChannelDatum} {channel_id version : Bytes}
    {state : ChannelState} {proof : MerkleProof}
    (h : provesChannel tx.redeemers d.verify_proof connection client datum channel_id version
      state proof height = some true) : d.ProvesAt tx connection client height := by
  simp only [provesChannel, bind_eq_some] at h
  obtain ⟨⟨_, _⟩, -, h⟩ := h
  exact provesAt_of_membership h

omit [Builtins] in
theorem membershipAt_spec {proof : MerkleProof} {key value : Bytes} {m : VerifyMembershipParams}
    (h : membershipAt connection client height proof key value = some m) :
    get_first client.processed_times height = some m.processed_time ∧
      m.delay_time_period = connection.delay_period := by
  simp only [membershipAt, bind_eq_some, pure_eq_some] at h
  obtain ⟨_, -, _, -, _, -, time, htime, _, -, rfl⟩ := h
  exact ⟨htime, rfl⟩

omit [Builtins] in
theorem nonMembershipAt_spec {proof : MerkleProof} {key : Bytes} {n : VerifyNonMembershipParams}
    (h : nonMembershipAt connection client height proof key = some n) :
    get_first client.processed_times height = some n.processed_time ∧
      n.delay_time_period = connection.delay_period := by
  simp only [nonMembershipAt, bind_eq_some, pure_eq_some] at h
  obtain ⟨m, hm, rfl⟩ := h
  exact membershipAt_spec hm

omit [Builtins] in
theorem delay_passed_spec {processed_time processed_height current_time current_height
    delay_time_period delay_block_period : Int}
    (h : verify_delay_period_passed processed_time processed_height current_time current_height
      delay_time_period delay_block_period = true) :
    processed_time + delay_time_period ≤ current_time := by
  simp only [verify_delay_period_passed, Bool.and_eq_true, decide_eq_true_eq] at h
  exact h.1.2

theorem membership_delay_passed {m : VerifyMembershipParams} {current_time current_height : Int}
    (h : client_state.verify_membership m current_time current_height = some true) :
    m.processed_time + m.delay_time_period ≤ current_time := by
  simp only [client_state.verify_membership, bind_eq_some, expect_eq_some] at h
  obtain ⟨-, -, -, hdelay, -⟩ := h
  exact delay_passed_spec hdelay

/-- A proof that is taken waits for the delay, counted from when the height was processed to when
the transaction begins. -/
theorem Deployment.delay_passed (h : d.Accepted L tx)
    (huse : d.ProvesAt tx connection client height) :
    ∃ valid_from processed_time, get_tx_valid_from tx.validity_range = some valid_from ∧
      get_first client.processed_times height = some processed_time ∧
      processed_time + connection.delay_period ≤ valid_from * 1000000 := by
  obtain ⟨redeemer, hredeemer, hproves⟩ := huse
  simp only [verifyProofRedeemer, bind_eq_some, Data.asVerifyProof_eq_some] at hredeemer
  obtain ⟨_, hfirst, rfl⟩ := hredeemer
  obtain ⟨n, hn⟩ := h.mint_needed hfirst
  have hmem : (d.verify_proof, Hashes.noSpend, fun redeemer policy tx => do
      verify_proof.mint (← redeemer.asVerifyProof) policy tx) ∈ d.table := by simp [Hashes.table]
  obtain ⟨redeemer', hfirst', hrun⟩ := h.mint_runs hn (d.scripts_spec hmem).2
  rw [hfirst] at hfirst'
  cases hfirst'
  simp only [Data.asVerifyProof, bind_eq_some, Option.some.injEq, exists_eq_left',
    verify_proof.mint, expect_eq_some] at hrun
  obtain ⟨valid_from, hfrom, -, -, hrun⟩ := hrun
  refine ⟨valid_from, ?_⟩
  cases hproves with
  | membership known given =>
    subst given
    obtain ⟨htime, hdelay⟩ := membershipAt_spec known
    exact ⟨_, hfrom, htime, hdelay ▸ membership_delay_passed hrun⟩
  | batch known given listed =>
    subst given
    obtain ⟨htime, hdelay⟩ := membershipAt_spec known
    rw [and_accepts] at hrun
    exact ⟨_, hfrom, htime, hdelay ▸ membership_delay_passed (all_of_allM hrun.2 _ listed)⟩
  | absence known given =>
    subst given
    obtain ⟨htime, hdelay⟩ := nonMembershipAt_spec known
    simp only [client_state.verify_non_membership, bind_eq_some, expect_eq_some] at hrun
    obtain ⟨-, -, -, hpassed, -⟩ := hrun
    exact ⟨_, hfrom, htime, hdelay ▸ delay_passed_spec hpassed⟩

/-! ## The transactions that use a proof -/

omit [Builtins] in
/-- The height of the proof an order of a channel comes with. -/
def SpendChannelRedeemer.proofHeight : SpendChannelRedeemer → Option Height
  | .ChanOpenAck _ _ proof_height => some proof_height
  | .ChanOpenConfirm _ proof_height => some proof_height
  | .RecvPacket _ _ proof_height => some proof_height
  | .TimeoutPacket _ _ proof_height _ => some proof_height
  | .AcknowledgePacket _ _ _ proof_height => some proof_height
  | .SendPacket _ => none
  | .ChanCloseInit => none
  | .ChanCloseConfirm _ proof_height => some proof_height
  | .PrunePacketHistory _ _ proof_height => some proof_height

/-- The transaction is a step of a handshake, or handles a packet, with a proof at this height of
the client, over this connection. -/
inductive ProofUse (d : Deployment) (tx : Transaction) (connection : ConnectionEnd)
    (client : ClientDatum) (height : Height) : Prop
  | connOpenTry {client_state : Bytes} {proof_init proof_client : MerkleProof} {out : Output}
      {c : ConnectionDatum}
      (ordered : get_first tx.redeemers (.Mint d.mint_connection) =
        some (.mintConnectionRedeemer (.ConnOpenTry client_state proof_init proof_client height)))
      (output : find_script_outputs tx.outputs d.spend_connection = [out])
      (datum : out.datum = .InlineDatum (.connection c))
      (referred : validate_referred_client tx.reference_inputs c.token.name d.mint_client
        c.state.client_id = some client)
      (over_eq : connection = c.state)
  | connection {i : Input} {old new : ConnectionDatum} {out : Output}
      {redeemer : SpendConnectionRedeemer} (spent : i ∈ tx.inputs)
      (at_script : i.output.address.payment_credential = .Script d.spend_connection)
      (datum : i.output.datum = .InlineDatum (.connection old))
      (ordered : get_first tx.redeemers (.Spend i.output_reference) =
        some (.spendConnectionRedeemer redeemer))
      (output : find_unique_continuation_output i.output tx.outputs old.token = some out)
      (updated : out.datum = .InlineDatum (.connection new))
      (referred : validate_referred_client tx.reference_inputs old.token.name d.mint_client
        old.state.client_id = some client)
      (over_eq : connection = new.state)
      (proven : (∃ proof_ack, redeemer = .ConnOpenConfirm proof_ack height) ∨
        (redeemer = .ConnOpenAck ∧ ∃ m : VerifyMembershipParams, m.height = height ∧
          verifyProofRedeemer tx.redeemers d.verify_proof = some (.VerifyMembership m)))
  | chanOpenTry {version : Bytes} {proof_init : MerkleProof} {out : Output} {c : ChannelDatum}
      {connection_id : Bytes} {used : ConnectionDatum}
      (ordered : get_first tx.redeemers (.Mint d.mint_channel) =
        some (.mintChannelRedeemer (.ChanOpenTry version proof_init height)))
      (output : find_script_outputs tx.outputs d.spend_channel = [out])
      (datum : out.datum = .InlineDatum (.channel c))
      (hops : c.state.channel.connection_hops = [connection_id])
      (referred : validate_referred_connection_and_client tx.reference_inputs c.token.name
        d.mint_client d.mint_connection connection_id = some (used, client))
      (over_eq : connection = used.state)
  | channel {token : AuthToken} {op : Operation} {input : Input} {connection_id : Bytes}
      {used : ConnectionDatum}
      (marked : get_first tx.redeemers
        (.Mint (spend_channel.operation d.spendChannelParams op.redeemer).1) =
          some (.authToken token))
      (read : readOperation d.policies token tx = some op)
      (reads : Reads d.policies token tx op input connection_id used client)
      (at_height : op.redeemer.proofHeight = some height)
      (over_eq : connection = used.state)

theorem chan_open_ack.mint_proves {policies : Policies} {token : AuthToken} {policy : PolicyId}
    (h : chan_open_ack.mint policies token policy tx = some true) :
    ∃ op version proof proof_height, readOperation policies token tx = some op ∧
      op.redeemer = .ChanOpenAck version proof proof_height ∧
      provesChannel tx.redeemers policies.verify_proof_policy_id op.connection op.client
        op.updated_datum op.channel_id version .TryOpen proof proof_height = some true := by
  simp only [chan_open_ack.mint, bind_eq_some, expect_eq_some] at h
  obtain ⟨-, -, op, hop, h⟩ := h
  split at h
  · rename_i version proof proof_height horder
    simp only [bind_eq_some, expect_eq_some, and_accepts, pure_eq_some] at h
    obtain ⟨_, -, valid, hproof, _, -, -, -, -, -, rfl⟩ := h
    exact ⟨op, version, proof, proof_height, hop, horder, hproof⟩
  · cases h

theorem timeout_packet.mint_proves {policies : Policies} {token : AuthToken} {policy : PolicyId}
    (h : timeout_packet.mint policies token policy tx = some true) :
    ∃ op packet proof proof_height next_sequence_recv,
      readOperation policies token tx = some op ∧
      op.redeemer = .TimeoutPacket packet proof proof_height next_sequence_recv ∧
      timeout_packet.provesUnreceived policies op tx packet proof proof_height
        next_sequence_recv = some true := by
  simp only [timeout_packet.mint, bind_eq_some, expect_eq_some] at h
  obtain ⟨-, -, op, hop, h⟩ := h
  split at h
  · rename_i packet proof proof_height next_sequence_recv horder
    simp only [bind_eq_some, expect_eq_some] at h
    obtain ⟨-, -, -, -, _, -, commitment, -, valid, hproof, callback, -, h⟩ := h
    split at h
    · simp only [bind_eq_some, expect_eq_some, pure_eq_some, Bool.and_eq_true] at h
      obtain ⟨-, -, _, -, -, rfl⟩ := h
      exact ⟨op, packet, proof, proof_height, next_sequence_recv, hop, horder, hproof⟩
    · cases h
  · cases h

omit [Builtins] in
theorem provesAt_of_unreceived {op : Operation} {packet : Packet} {proof : MerkleProof}
    {next_sequence_recv : Int}
    (h : timeout_packet.provesUnreceived d.policies op tx packet proof height next_sequence_recv =
      some true) : d.ProvesAt tx op.connection op.client height := by
  unfold timeout_packet.provesUnreceived at h
  split at h
  · exact provesAt_of_absence h
  · rw [and_accepts] at h
    have hproof := h.2
    simp only [timeout_packet.validate_timeout_ordered_packet_proof, bind_eq_some] at hproof
    obtain ⟨_, -, hproof⟩ := hproof
    exact provesAt_of_membership hproof
  · cases h

/-- The policy of connections has seen the proof of a connection that the counterparty began. -/
theorem mint_connection_stt.mint_proves {nft policy : PolicyId} {client_state : Bytes}
    {proof_init proof_client : MerkleProof} {out : Output} {c : ConnectionDatum}
    {client : ClientDatum}
    (h : mint_connection_stt.mint d.mint_client d.verify_proof d.spend_connection nft
      (.ConnOpenTry client_state proof_init proof_client height) policy tx = some true)
    (output : find_script_outputs tx.outputs d.spend_connection = [out])
    (datum : out.datum = .InlineDatum (.connection c))
    (referred : validate_referred_client tx.reference_inputs c.token.name d.mint_client
      c.state.client_id = some client) : d.ProvesAt tx c.state client.state height := by
  simp only [mint_connection_stt.mint, bind_eq_some, exactlyOne_eq_some,
    get_inline_datum_eq_some, Data.asConnection_eq_some, output, List.cons.injEq, and_true,
    and_accepts, pure_eq_some, Bool.and_eq_true] at h
  obtain ⟨_, -, _, -, _, -, _, rfl, _, hdatum, c', rfl, client', hclient, _, -, _, -, valid, hvalid,
    ⟨⟨-, -⟩, rfl⟩, -⟩ := h
  rw [datum] at hdatum
  cases hdatum
  rw [referred] at hclient
  cases hclient
  rw [and_accepts] at hvalid
  have hproof := hvalid.2
  simp only [mint_connection_stt.validate_conn_open_try_proof, bind_eq_some, pure_eq_some,
    beq_iff_eq] at hproof
  obtain ⟨_, -, conn, hconn, cl, -, redeemer, hredeemer, rfl⟩ := hproof
  exact ⟨_, hredeemer, .batch hconn rfl List.mem_cons_self⟩

/-- The script of a connection has seen the proof that the counterparty went on. -/
theorem spend_connection.spend_proves {nft : PolicyId} {reference : OutputReference}
    {redeemer : SpendConnectionRedeemer} {i : Input} {old new : ConnectionDatum} {out : Output}
    {client : ClientDatum}
    (h : spend_connection.spend d.mint_client d.verify_proof nft (some old) redeemer reference tx =
      some true)
    (found : find_input tx.inputs reference = some i)
    (output : find_unique_continuation_output i.output tx.outputs old.token = some out)
    (updated : out.datum = .InlineDatum (.connection new))
    (referred : validate_referred_client tx.reference_inputs old.token.name d.mint_client
      old.state.client_id = some client)
    (proven : (∃ proof_ack, redeemer = .ConnOpenConfirm proof_ack height) ∨
      (redeemer = .ConnOpenAck ∧ ∃ m : VerifyMembershipParams, m.height = height ∧
        verifyProofRedeemer tx.redeemers d.verify_proof = some (.VerifyMembership m))) :
    d.ProvesAt tx new.state client.state height := by
  simp only [spend_connection.spend, bind_eq_some, expect_eq_some, found, output,
    get_inline_datum_eq_some, updated, Data.asConnection_eq_some, Option.some.injEq,
    exists_eq_left'] at h
  obtain ⟨_, -, -, -, _, hnew, new', rfl, -, -, _, -, _, -, client', hclient, h⟩ := h
  cases hnew
  rw [referred] at hclient
  cases hclient
  rcases proven with ⟨proof_ack, rfl⟩ | ⟨rfl, m, rfl, hm⟩
  · simp only [and_accepts, pure_eq_some] at h
    obtain ⟨-, -, hproof⟩ := h
    simp only [spend_connection.validate_conn_open_confirm_proof, bind_eq_some] at hproof
    obtain ⟨_, -, hproof⟩ := hproof
    exact provesAt_of_membership hproof
  · simp only [and_accepts, pure_eq_some] at h
    obtain ⟨hproof, -, -⟩ := h
    simp only [spend_connection.validate_conn_open_ack_proof, bind_eq_some, hm,
      Option.some.injEq, exists_eq_left', pure_eq_some, beq_iff_eq] at hproof
    obtain ⟨_, -, expected, hexpected, rfl⟩ := hproof
    exact ⟨_, hm, .membership hexpected rfl⟩

/-- The policy of channels has seen the proof of a channel that the counterparty began. -/
theorem mint_channel_stt.mint_proves {policy : PolicyId} {version : Bytes}
    {proof_init : MerkleProof} {out : Output} {c : ChannelDatum} {connection_id : Bytes}
    {used : ConnectionDatum} {client : ClientDatum}
    (h : mint_channel_stt.mint d.mintChannelParams (.ChanOpenTry version proof_init height) policy
      tx = some true)
    (output : find_script_outputs tx.outputs d.spend_channel = [out])
    (datum : out.datum = .InlineDatum (.channel c))
    (hops : c.state.channel.connection_hops = [connection_id])
    (referred : validate_referred_connection_and_client tx.reference_inputs c.token.name
      d.mint_client d.mint_connection connection_id = some (used, client)) :
    d.ProvesAt tx used.state client.state height := by
  simp only [mint_channel_stt.mint, bind_eq_some, exactlyOne_eq_some, get_inline_datum_eq_some,
    Data.asChannel_eq_some] at h
  obtain ⟨_, -, _, -, _, -, out', hout, _, hdatum, c', rfl, id, hid, ⟨used', client'⟩, hreferred, _,
    -, _, -, _, -, callback, -, h⟩ := h
  obtain rfl : out' = out := by simpa using hout.symm.trans output
  rw [datum] at hdatum
  cases hdatum
  obtain rfl : id = connection_id := by simpa using hid.symm.trans hops
  have hsame := hreferred.symm.trans referred
  simp only [Option.some.injEq, Prod.mk.injEq] at hsame
  obtain ⟨rfl, rfl⟩ := hsame
  split at h
  · cases h
  simp only [bind_eq_some, and_accepts, pure_eq_some, Bool.and_eq_true] at h
  obtain ⟨valid, hvalid, ⟨-, rfl⟩, -⟩ := h
  rw [and_accepts, and_accepts, and_accepts] at hvalid
  exact provesAt_of_channel hvalid.2.2.1

/-- The marker of an operation has seen the proof it comes with. -/
theorem Deployment.operation_proves (h : d.Accepted L tx) {token : AuthToken} {op : Operation}
    (marked : get_first tx.redeemers
      (.Mint (spend_channel.operation d.spendChannelParams op.redeemer).1) =
        some (.authToken token))
    (read : readOperation d.policies token tx = some op)
    (at_height : op.redeemer.proofHeight = some height) :
    d.ProvesAt tx op.connection op.client height := by
  obtain ⟨n, hn⟩ := h.mint_needed marked
  -- the marker runs with the redeemer it is found with
  have hmarker : ∀ {policy : PolicyId} {spend : SpendScript}
      {run : AuthToken → PolicyId → Transaction → Option Bool},
      (policy, spend, Hashes.marker run) ∈ d.table →
      policy = (spend_channel.operation d.spendChannelParams op.redeemer).1 →
      run token policy tx = some true := by
    rintro policy spend run hmem rfl
    obtain ⟨redeemer, hfirst, hrun⟩ := h.mint_runs hn (d.scripts_spec hmem).2
    rw [marked] at hfirst
    cases hfirst
    simpa [Hashes.marker, Data.asAuthToken] using hrun
  have hnone : ∀ {policy : PolicyId} {spend : SpendScript},
      (policy, spend, Hashes.noMint) ∈ d.table →
      policy ≠ (spend_channel.operation d.spendChannelParams op.redeemer).1 := by
    rintro policy spend hmem rfl
    obtain ⟨redeemer, -, hrun⟩ := h.mint_runs hn (d.scripts_spec hmem).2
    cases hrun
  cases hop : op.redeemer with
  | SendPacket _ => simp [hop, SpendChannelRedeemer.proofHeight] at at_height
  | ChanCloseInit => simp [hop, SpendChannelRedeemer.proofHeight] at at_height
  | ChanOpenConfirm _ _ =>
    have hmem : (d.chan_open_confirm, Hashes.channelSpend (chan_open_confirm.spend d.policies),
        Hashes.noMint) ∈ d.table := by simp [Hashes.table]
    exact absurd (by rw [hop]; rfl) (hnone hmem)
  | ChanCloseConfirm _ _ =>
    have hmem : (d.chan_close_confirm,
        Hashes.channelSpend (chan_close_confirm.spend d.policies), Hashes.noMint) ∈ d.table := by
      simp [Hashes.table]
    exact absurd (by rw [hop]; rfl) (hnone hmem)
  | ChanOpenAck _ _ _ =>
    have hmem : (d.chan_open_ack, Hashes.noSpend,
        Hashes.marker (chan_open_ack.mint d.policies)) ∈ d.table := by simp [Hashes.table]
    obtain ⟨op', _, _, _, hread, horder, hproof⟩ :=
      chan_open_ack.mint_proves (hmarker hmem (by rw [hop]; rfl))
    rw [read] at hread
    cases hread
    rw [horder] at at_height
    cases at_height
    exact provesAt_of_channel hproof
  | RecvPacket _ _ _ =>
    have hmem : (d.recv_packet, Hashes.noSpend,
        Hashes.marker (recv_packet.mint d.policies)) ∈ d.table := by simp [Hashes.table]
    obtain ⟨op', _, _, _, _, hread, -, hrecv⟩ :=
      recv_packet.mint_spec (hmarker hmem (by rw [hop]; rfl))
    rw [read] at hread
    cases hread
    rw [hrecv.ordered] at at_height
    cases at_height
    have hproof := hrecv.proven
    simp only [recv_packet.validate_recv_packet_proof, bind_eq_some] at hproof
    obtain ⟨_, -, hproof⟩ := hproof
    exact provesAt_of_membership hproof
  | TimeoutPacket _ _ _ _ =>
    have hmem : (d.timeout_packet, Hashes.noSpend,
        Hashes.marker (timeout_packet.mint d.policies)) ∈ d.table := by simp [Hashes.table]
    obtain ⟨op', _, _, _, _, hread, horder, hproof⟩ :=
      timeout_packet.mint_proves (hmarker hmem (by rw [hop]; rfl))
    rw [read] at hread
    cases hread
    rw [horder] at at_height
    cases at_height
    exact provesAt_of_unreceived hproof
  | AcknowledgePacket _ _ _ _ =>
    have hmem : (d.acknowledge_packet, Hashes.noSpend,
        Hashes.marker (acknowledge_packet.mint d.policies)) ∈ d.table := by simp [Hashes.table]
    obtain ⟨op', _, _, _, _, _, hread, -, hack⟩ :=
      acknowledge_packet.mint_spec (hmarker hmem (by rw [hop]; rfl))
    rw [read] at hread
    cases hread
    rw [hack.ordered] at at_height
    cases at_height
    exact provesAt_of_membership hack.proven
  | PrunePacketHistory _ _ _ =>
    have hmem : (d.prune_packet_history, Hashes.noSpend,
        Hashes.marker (prune_packet_history.mint d.policies)) ∈ d.table := by
      simp [Hashes.table]
    obtain ⟨op', _, _, _, hread, -, hprune⟩ :=
      prune_packet_history.mint_spec (hmarker hmem (by rw [hop]; rfl))
    rw [read] at hread
    cases hread
    rw [hprune.ordered] at at_height
    cases at_height
    exact provesAt_of_absence hprune.proven

/-- Whatever uses a proof runs the proof script for it. -/
theorem ProofUse.provesAt {client : ClientDatum} (h : d.Accepted L tx)
    (huse : ProofUse d tx connection client height) :
    d.ProvesAt tx connection client.state height := by
  cases huse with
  | connOpenTry ordered output datum referred over_eq =>
    subst over_eq
    obtain ⟨n, hn⟩ := h.mint_needed ordered
    have hmem : (d.mint_connection, Hashes.noSpend, d.connectionMint) ∈ d.table := by
      simp [Hashes.table]
    obtain ⟨redeemer, hfirst, hrun⟩ := h.mint_runs hn (d.scripts_spec hmem).2
    rw [ordered] at hfirst
    cases hfirst
    exact mint_connection_stt.mint_proves hrun output datum referred
  | connection spent at_script datum ordered output updated referred over_eq proven =>
    subst over_eq
    rename_i i old new out redeemer
    have hgiven : tx.datumOf i.output = some (.connection old) := by
      simp [Transaction.datumOf, datum]
    have hmem : (d.spend_connection, d.connectionSpend, Hashes.noMint) ∈ d.table := by
      simp [Hashes.table]
    obtain ⟨redeemer', hfirst, hrun⟩ := h.spend_runs spent at_script (d.scripts_spec hmem).1
    rw [ordered] at hfirst
    cases hfirst
    have hfound := Deployment.find_input_self h.inputs_nodup spent
    simp only [Hashes.connectionSpend, hgiven, Hashes.castDatum, Data.asConnection,
      bind_eq_some, Option.map_some, Option.some.injEq] at hrun
    obtain ⟨_, rfl, _, hsame, hrun⟩ := hrun
    cases hsame
    exact spend_connection.spend_proves hrun hfound output updated referred proven
  | chanOpenTry ordered output datum hops referred over_eq =>
    subst over_eq
    obtain ⟨n, hn⟩ := h.mint_needed ordered
    have hmem : (d.mint_channel, Hashes.noSpend, d.channelMint) ∈ d.table := by
      simp [Hashes.table]
    obtain ⟨redeemer, hfirst, hrun⟩ := h.mint_runs hn (d.scripts_spec hmem).2
    rw [ordered] at hfirst
    cases hfirst
    exact mint_channel_stt.mint_proves hrun output datum hops referred
  | channel marked read reads at_height over_eq =>
    subst over_eq
    rw [← reads.connection_eq, ← reads.client_eq]
    exact Deployment.operation_proves h marked read at_height

end Proofs

/-! ## When a height was processed -/

theorem get_first_of_filter {α β : Type} [BEq α] [LawfulBEq α] {ps : List (α × β)} {p : α → Bool}
    {k : α} {v : β} (h : get_first (ps.filter fun item => p item.1) k = some v) :
    get_first ps k = some v := by
  have hp : p k = true := (List.mem_filter.mp (mem_of_get_first h)).2
  induction ps with
  | nil => exact h
  | cons item ps ih =>
    by_cases hk : item.1 = k
    · simp [get_first, hk, hp] at h ⊢
      exact h
    · have hsame : get_first (item :: ps) k = get_first ps k := by simp [get_first, hk]
      rw [hsame]
      refine ih ?_
      by_cases hitem : p item.1 = true
      · simpa [get_first, hitem, hk] using h
      · simpa [hitem] using h

theorem get_first_of_take {α β : Type} [BEq α] {ps : List (α × β)} {k : α} {v : β} {n : Nat}
    (h : get_first (ps.take n) k = some v) : get_first ps k = some v := by
  simp only [get_first, Option.map_eq_some_iff] at h ⊢
  obtain ⟨item, hitem, rfl⟩ := h
  exact ⟨item, (List.take_prefix n ps).find?_eq_some hitem, rfl⟩

/-- The client is at or above a height, and if it still says when it processed it, it says so
truly. -/
structure ProcessedAt (h : Height) (time : Int) (c : ClientDatumState) : Prop where
  reached : height.compare c.client_state.latest_height h ≠ .lt
  only : ∀ processed, get_first c.processed_times h = some processed → processed = time

section Delay

variable [Builtins] {d : Deployment} {L : Ledger} {tx : Transaction} {old new first c : ClientDatum}
  {h : Height} {time : Int}

/-- An update adds a height above all heights so far. -/
theorem ProcessedAt.update (w : ProcessedAt h time old.state) (hupdate : ClientUpdate tx old new) :
    ProcessedAt h time new.state := by
  cases hupdate with
  | header header added valid_from _ _ _ _ _ _ _ _ advances effect =>
    subst effect
    have hreached := w.reached
    rw [height.compare_ne_lt_iff, height.compare_ne_gt_iff] at hreached
    rw [height.compare_eq_gt_iff] at advances
    refine ⟨?_, ?_⟩
    · show height.compare added h ≠ .lt
      rw [height.compare_ne_lt_iff, height.compare_ne_gt_iff]
      omega
    · intro processed hprocessed
      have hother : ¬ added = h := by
        rintro rfl
        omega
      have hrest := get_first_of_take hprocessed
      simp only [get_first, List.find?_cons, beq_eq_false_iff_ne.mpr hother] at hrest
      exact w.only processed (get_first_of_filter hrest)
  | misbehaviour _ _ _ effect =>
    subst effect
    exact ⟨w.reached, w.only⟩

theorem ClientChain.processedAt (w : ProcessedAt h time first.state)
    (hchain : ClientChain d first c) : ProcessedAt h time c.state := by
  induction hchain with
  | start => exact w
  | step _ update ih => exact ih.update update.update

/-- The update that adds a height says it was processed when the transaction begins. -/
theorem ClientUpdate.processedAt (hupdate : ClientUpdate tx old new)
    (hnew : has_key old.state.consensus_states h = false)
    (hadded : has_key new.state.consensus_states h = true) :
    ∃ valid_from, get_tx_valid_from tx.validity_range = some valid_from ∧
      ProcessedAt h (valid_from * 1000000) new.state := by
  cases hupdate with
  | misbehaviour _ _ _ effect =>
    subst effect
    rw [has_key_eq_false_iff] at hnew
    exact absurd (has_key_iff.mp hadded) hnew
  | header header added valid_from _ begins _ _ _ _ _ _ _ effect =>
    subst effect
    refine ⟨valid_from, begins, ?_⟩
    rw [has_key_iff, client_datum.expectedState_consensus_states, List.map_cons,
      List.mem_cons] at hadded
    rcases hadded with rfl | hkept
    · refine ⟨?_, ?_⟩
      · show height.compare h h ≠ .lt
        rw [height.compare_ne_lt_iff]
        exact height.le_refl h
      · intro processed hprocessed
        have hfirst := get_first_of_take hprocessed
        simp only [get_first, List.find?_cons, beq_self_eq_true, Option.map_some,
          Option.some.injEq] at hfirst
        exact hfirst.symm
    · rw [has_key_eq_false_iff] at hnew
      refine absurd ?_ hnew
      obtain ⟨e, he, rfl⟩ := List.mem_map.mp hkept
      exact List.mem_map_of_mem (List.mem_of_mem_filter (List.mem_of_mem_take he))

/-- Where a height is added by a transaction that is taken when it begins, a proof at that height
is used no sooner than the delay of the connection after it. -/
theorem a_proof_waits_for_the_delay {added used : Transaction} {connection : ConnectionEnd}
    {t₁ t₂ : Int} (hupdate : UpdatesClient d added old first)
    (hnew : has_key old.state.consensus_states h = false)
    (hadded : has_key first.state.consensus_states h = true)
    (hbegins : get_tx_valid_from added.validity_range = some t₁)
    (hchain : ClientChain d first c) (haccepted : d.Accepted L used)
    (huse : ProofUse d used connection c h) (htime : used.validity_range.includes t₂ = true) :
    t₁ * 1000000 + connection.delay_period ≤ t₂ * 1000000 := by
  obtain ⟨valid_from, hfrom, hfirst⟩ := hupdate.update.processedAt hnew hadded
  rw [hbegins] at hfrom
  cases hfrom
  obtain ⟨begins, processed, hbegins', hprocessed, hdelay⟩ :=
    Deployment.delay_passed haccepted (huse.provesAt haccepted)
  have hthen := (hchain.processedAt hfirst).only processed hprocessed
  have hlate := valid_from_le hbegins' htime
  omega

end Delay

/-! ## A delay that is counted from before it begins -/

section Sample

local instance delayBuiltins : Builtins := watchedBuiltins

def nextHeight : Height := { revision_number := 1, revision_height := 6 }

/-- The watched client with the next header, which the transaction says it processed at 1100. -/
def nextClient : ClientDatum :=
  { watchedClient with
    state := client_datum.expectedState watchedClient.state nextHeader nextHeight 1100 }

def nextHostDatum : HostStateDatum :=
  watchedHostDatum 2 0x69d9944a5ed16d4e2ff1f6ea078862b58713ba3be979dde00895cf649fc9be74

def walletOutput (value : Value) : Output :=
  { address := sampleWallet.output.address, value, datum := .NoDatum }

/-- The transaction can be taken from 1100 on, until 20000. -/
def nextTx : Transaction :=
  { inputs := [watchedHost, watchedInput]
    reference_inputs := []
    outputs := [sampleHostOutput nextHostDatum, watchedClientOutput 5000000 nextClient,
      walletOutput [lovelace 4600000]]
    fee := 200000
    mint := []
    validity_range := timeRange 1100 20000
    extra_signatories := []
    redeemers := [(.Spend watchedHost.output_reference, .hostStateRedeemer
        (.UpdateClient
          (siblingsAbove [0x405cf12a0f2e8fff5db16490e5a08241223aec99e170be01f98c5b4e832f207d])
          (siblingsAbove [0x88ac3786d4b562cbf5ddc25337e64ee5ea3f1a589e1e36b67dc6a619287d6d7b,
            0x405cf12a0f2e8fff5db16490e5a08241223aec99e170be01f98c5b4e832f207d]) [])),
      (.Spend watchedInput.output_reference,
        .spendClientRedeemer (.UpdateClient (.HeaderCase nextHeader)))]
    datums := []
    id := List.replicate 32 94 }

theorem nextTx_accepted : sampleBridge.Accepted watchedLedger nextTx :=
  Ledger.accepts_iff.mp (by decide +kernel)

def nextLedger : Ledger := watchedLedger.apply nextTx nextTx_accepted

def nextHost : Input := outputOf nextTx 0 (sampleHostOutput nextHostDatum)

def nextClientInput : Input := outputOf nextTx 1 (watchedClientOutput 5000000 nextClient)

def nextWallet : Input := outputOf nextTx 2 (walletOutput [lovelace 4600000])

/-- A connection with a delay of 8 seconds. -/
def delayedConnection : ConnectionDatum :=
  { state :=
      { client_id := utf8 "07-tendermint-0"
        versions := version.get_compatible_versions
        state := .TryOpen
        counterparty :=
          { client_id := utf8 "07-tendermint-4"
            connection_id := utf8 "connection-3"
            prefixKey := { key_prefix := utf8 "ibc" } }
        delay_period := 8000000000 }
    token :=
      { policy_id := sampleBridge.mint_connection
        name := bigEndian 25 0x00a534446f3cc32f5e29f8397167a024e0f402a219dd9b3030 } }

def delayedBytes : Bytes :=
  (connection_pb.marshal_for_connection_end
    (counterpartyConnection delayedConnection.state [] .Init)).getD []

/-- The proof of one of the two entries of the counterparty's store, the other being beside it. -/
def besideProof (key value before after : Bytes) : MerkleProof :=
  { proofs :=
      [.Exist { key, value, leaf := { specLeaf with prefixBytes := [0, 2, 2] }
                path := [{ hash := 1, prefixBytes := [2, 4, 2, 32] ++ before, suffix := after }] },
        .Exist
          { key := utf8 "ibc"
            value := bigEndian 32
              0x032581aac505cbb9e1ccdfe3c24890f0413bcc64f05238ec459f2287af1f0789
            leaf := specLeaf
            path := [] }] }

def connectionProof : MerkleProof :=
  besideProof (connection_path (utf8 "connection-3")) delayedBytes
    (bigEndian 32 0x1623f5cb24cd85a9b5f2d35193ef8c978b3e6b53ade1b8aa941cf36e905ccf85 ++ [32]) []

def clientProof : MerkleProof :=
  besideProof (full_client_state_path (utf8 "07-tendermint-4")) (utf8 "cardano") []
    (32 :: bigEndian 32 0x93ebacdfc38a6f2740fe287945ebebbd57fa98951760e1b1f4521e71ab9abd7c)

def delayedParams : List VerifyMembershipParams :=
  (membershipAt delayedConnection.state nextClient.state nextHeight connectionProof
    (connection_path (utf8 "connection-3")) delayedBytes).toList ++
  (membershipAt delayedConnection.state nextClient.state nextHeight clientProof
    (full_client_state_path (utf8 "07-tendermint-4")) (utf8 "cardano")).toList

def delayedHostDatum : HostStateDatum :=
  { nextHostDatum with
    state := { nextHostDatum.state with
      version := 3
      next_connection_sequence := 1
      ibc_state_root :=
        bigEndian 32 0xa9b56f38368dafa9a34b6b929e06d1d2761550897856b26c3d69fd42274da3e4 } }

/-- The connection is tried between 9200 and 20000, with proofs at the next height. -/
def delayedTx : Transaction :=
  { inputs := [nextHost, nextWallet]
    reference_inputs := [nextClientInput]
    outputs := [sampleHostOutput delayedHostDatum,
      { address := atScript sampleBridge.spend_connection
        value := [lovelace 2000000,
          (delayedConnection.token.policy_id, delayedConnection.token.name, 1)]
        datum := .InlineDatum (.connection delayedConnection) },
      walletOutput [lovelace 2400000, (sampleBridge.verify_proof, [], 1)]]
    fee := 200000
    mint := [(delayedConnection.token.policy_id, delayedConnection.token.name, 1),
      (sampleBridge.verify_proof, [], 1)]
    validity_range := timeRange 9200 20000
    extra_signatories := []
    redeemers := [(.Spend nextHost.output_reference, .hostStateRedeemer
        (.CreateConnection
          (siblingsAbove [0xd07091d0796f81514d36c04792fe2395e97b09aabd5e3731b1bc061808a32b8f, 0,
            0x88ac3786d4b562cbf5ddc25337e64ee5ea3f1a589e1e36b67dc6a619287d6d7b,
            0x405cf12a0f2e8fff5db16490e5a08241223aec99e170be01f98c5b4e832f207d]))),
      (.Mint sampleBridge.mint_connection, .mintConnectionRedeemer
        (.ConnOpenTry (utf8 "cardano") connectionProof clientProof nextHeight)),
      (.Mint sampleBridge.verify_proof, .verifyProof (.BatchVerifyMembership delayedParams))]
    datums := []
    id := List.replicate 32 95 }

theorem delayedTx_accepted : sampleBridge.Accepted nextLedger delayedTx :=
  Ledger.accepts_iff.mp (by decide +kernel)

theorem nextClient_updated : UpdatesClient sampleBridge nextTx watchedClient nextClient :=
  ⟨⟨watchedLedger, nextTx_accepted⟩, watchedInput, by decide, rfl, rfl,
    watchedClientOutput 5000000 nextClient, by decide, rfl⟩

theorem delayedTx_uses : ProofUse sampleBridge delayedTx delayedConnection.state nextClient
    nextHeight :=
  .connOpenTry rfl rfl rfl (by decide) rfl

/-- Had the update been taken when it begins, the connection would be late enough. -/
theorem the_delay_has_passed_since_the_update_began :
    1100 * 1000000 + delayedConnection.state.delay_period ≤ 9300 * 1000000 :=
  a_proof_waits_for_the_delay nextClient_updated (by decide) (by decide) rfl .start
    delayedTx_accepted delayedTx_uses (by decide)

/-- In a run from the deployment on, a header is taken at 9000 by a transaction that could be taken
from 1100 on, and a connection with a delay of 8 seconds is tried with a proof at its height at
9300. -/
theorem a_proof_is_used_before_its_delay :
    Deployed sampleBridge.toHashes sampleLedger sampleHost sampleHostDatum ∧
      Run sampleBridge sampleLedger
        [(nextLedger, delayedTx), (watchedLedger, nextTx), (sampleLedger, watchedTx)]
        (nextLedger.apply delayedTx delayedTx_accepted) ∧
      UpdatesClient sampleBridge nextTx watchedClient nextClient ∧
      has_key watchedClient.state.consensus_states nextHeight = false ∧
      has_key nextClient.state.consensus_states nextHeight = true ∧
      nextTx.validity_range.includes 9000 = true ∧
      ProofUse sampleBridge delayedTx delayedConnection.state nextClient nextHeight ∧
      delayedTx.validity_range.includes 9300 = true ∧
      ¬ 9000 * 1000000 + delayedConnection.state.delay_period ≤ 9300 * 1000000 :=
  ⟨sampleLedger_deployed,
    .step (.step (.step .start watchedTx_accepted (by decide)) nextTx_accepted (by decide))
      delayedTx_accepted (by decide),
    nextClient_updated, by decide, by decide, by decide, delayedTx_uses, by decide, by decide⟩

end Sample

end cardano_ibc
