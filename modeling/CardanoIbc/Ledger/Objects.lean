-- What the ledger makes of the scripts: an object's token is minted only where the object is
-- created, and an object that is spent goes on under its token.
import CardanoIbc.Ledger.Deployment
import CardanoIbc.Validators.OperationSpecs

namespace cardano_ibc

namespace Hashes

/-- The policy of the tokens of a kind of object. -/
def policy (d : Hashes) : Kind → PolicyId
  | .client => d.mint_client
  | .connection => d.mint_connection
  | .channel => d.mint_channel

/-- The script the objects of a kind sit at. -/
def script (d : Hashes) : Kind → ScriptHash
  | .client => d.spend_client
  | .connection => d.spend_connection
  | .channel => d.spend_channel

/-- The token of the object of a kind that has this number. -/
def token [Builtins] (d : Hashes) (k : Kind) (sequence : Int) : Option AuthToken :=
  objectToken d.host_state_nft (d.policy k) k.nameText sequence

end Hashes

/-- What an object becomes when it is spent. -/
inductive ObjectStep [Builtins] (d : Hashes) (tx : Transaction) (spent : Input) :
    Data → Data → Prop
  | client {old new : ClientDatum} (h : ClientStep old new) :
    ObjectStep d tx spent (.client old) (.client new)
  | connection {old new : ConnectionDatum} (h : ConnectionStep old new) :
    ObjectStep d tx spent (.connection old) (.connection new)
  | channel {op : Operation} {connection_id : Bytes} {connection : ConnectionDatum}
      {client : ClientDatum}
      (reads : Reads d.policies op.datum.token tx op spent connection_id connection client)
      (performs : Performs d.policies tx op) :
    ObjectStep d tx spent (.channel op.datum) (.channel op.updated_datum)

/-- No operation changes the token or the port of a channel. -/
theorem Performs.keeps [Builtins] {policies : Policies} {tx : Transaction} {op : Operation}
    (h : Performs policies tx op) :
    op.updated_datum.token = op.datum.token ∧ op.updated_datum.port_id = op.datum.port_id := by
  cases h with
  | openAck h => rw [h.effect]; exact ⟨rfl, rfl⟩
  | send h => rw [h.effect]; exact ⟨rfl, rfl⟩
  | recv h =>
    rcases channel_datum.received_cases h.effect with ⟨-, heq⟩ | ⟨-, heq⟩
    · rw [heq]; exact ⟨rfl, rfl⟩
    · rw [heq]; exact ⟨rfl, rfl⟩
  | acknowledge h => rw [h.effect]; exact ⟨rfl, rfl⟩
  | timeout h => rw [h.effect]; exact ⟨rfl, rfl⟩
  | prune h => rw [h.effect]; exact ⟨rfl, rfl⟩

namespace Deployment

variable [Builtins] {d : Deployment} {L : Ledger} {tx : Transaction}

omit [Builtins] in
theorem policy_ne_ada (d : Deployment) (k : Kind) : d.policy k ≠ ada_policy_id := by
  intro h
  have hmem : d.policy k ∈ d.all := by
    cases k <;> simp [Hashes.policy, Hashes.all]
  rw [h] at hmem
  exact d.named hmem

omit [Builtins] in
theorem nft_ne_ada (d : Deployment) : d.host_state_nft ≠ ada_policy_id := by
  intro h
  have hmem : d.host_state_nft ∈ d.all := by simp [Hashes.all]
  rw [h] at hmem
  exact d.named hmem

/-- Whatever sits at the host state's script is spent by an order that the script takes. -/
theorem host_runs (h : d.Accepted L tx) {i : Input} (hi : i ∈ tx.inputs)
    (haddress : i.output.address.payment_credential = .Script d.host_state_stt) :
    ∃ order, get_first tx.redeemers (.Spend i.output_reference) =
      some (.hostStateRedeemer order) ∧
      host_state_stt.spend d.hostParams order tx = some true := by
  have hmem : (d.host_state_stt, d.hostSpend, Hashes.noMint) ∈ d.table := by
    simp [Hashes.table]
  obtain ⟨redeemer, hredeemer, hrun⟩ := h.spend_runs hi haddress (d.scripts_spec hmem).1
  simp only [Hashes.hostSpend, bind_eq_some, Data.asHostStateRedeemer_eq_some] at hrun
  obtain ⟨order, rfl, hrun⟩ := hrun
  exact ⟨order, hredeemer, hrun⟩

/-! ## The tokens -/

/-- The host state's token is minted only by a transaction that spends the one output it was
bound to. -/
theorem nft_minted (h : d.Accepted L tx) {n : AssetName}
    (hn : assets.quantity_of tx.mint d.host_state_nft n ≠ 0) :
    ∃ i ∈ tx.inputs, i.output_reference = d.nonce := by
  obtain ⟨redeemer, -, hrun⟩ := h.mint_runs hn (d.scripts_spec List.mem_cons_self).2
  simp only [host_state_nft.mint, bind_eq_some, find_input] at hrun
  obtain ⟨i, hi, -⟩ := hrun
  have href := List.find?_some hi
  exact ⟨i, List.mem_of_find?_eq_some hi, by simpa using href⟩

/-- An object's token is minted only where such an object is created. -/
theorem object_minted (h : d.Accepted L tx) {k : Kind} {n : AssetName}
    (hn : assets.quantity_of tx.mint (d.policy k) n ≠ 0) :
    ∃ host hd order token out data, Creation k d.host_state_nft (d.policy k) (d.script k) tx
      host hd order token out data := by
  cases k with
  | client =>
    have hmem : (d.mint_client, Hashes.noSpend, d.clientMint) ∈ d.table := by simp [Hashes.table]
    obtain ⟨redeemer, -, hrun⟩ := h.mint_runs hn (d.scripts_spec hmem).2
    exact mint_client_stt.mint_spec hrun
  | connection =>
    have hmem : (d.mint_connection, Hashes.noSpend, d.connectionMint) ∈ d.table := by simp [Hashes.table]
    obtain ⟨redeemer, -, hrun⟩ := h.mint_runs hn (d.scripts_spec hmem).2
    simp only [Hashes.connectionMint, bind_eq_some] at hrun
    obtain ⟨_, -, hrun⟩ := hrun
    exact mint_connection_stt.mint_spec hrun
  | channel =>
    have hmem : (d.mint_channel, Hashes.noSpend, d.channelMint) ∈ d.table := by simp [Hashes.table]
    obtain ⟨redeemer, -, hrun⟩ := h.mint_runs hn (d.scripts_spec hmem).2
    simp only [Hashes.channelMint, bind_eq_some] at hrun
    obtain ⟨_, -, hrun⟩ := hrun
    exact mint_channel_stt.mint_spec hrun

/-! ## The objects -/

theorem marker_runs (h : d.Accepted L tx) {policy : PolicyId} {token : AuthToken}
    {spend : SpendScript} {run : AuthToken → PolicyId → Transaction → Option Bool}
    (hmem : (policy, spend, Hashes.marker run) ∈ d.table)
    (hredeemer : get_first tx.redeemers (.Mint policy) = some (.authToken token))
    (hmint : assets.quantity_of tx.mint policy [] = 1) : run token policy tx = some true := by
  have hn : assets.quantity_of tx.mint policy [] ≠ 0 := by omega
  obtain ⟨redeemer, hfirst, hrun⟩ := h.mint_runs hn (d.scripts_spec hmem).2
  rw [hredeemer] at hfirst
  cases hfirst
  simpa [Hashes.marker, Data.asAuthToken] using hrun

theorem no_marker (h : d.Accepted L tx) {policy : PolicyId} {spend : SpendScript}
    (hmem : (policy, spend, Hashes.noMint) ∈ d.table) :
    assets.quantity_of tx.mint policy [] ≠ 1 := by
  intro hmint
  have hn : assets.quantity_of tx.mint policy [] ≠ 0 := by omega
  obtain ⟨redeemer, -, hrun⟩ := h.mint_runs hn (d.scripts_spec hmem).2
  cases hrun

/-- The operation a channel is spent with was carried out by its marker. The three operations
without a minting side cannot be. -/
theorem operation_performed (h : d.Accepted L tx) {redeemer : SpendChannelRedeemer}
    {token : AuthToken}
    (hredeemer : get_first tx.redeemers
      (.Mint (spend_channel.operation d.spendChannelParams redeemer).1) = some (.authToken token))
    (hmint : assets.quantity_of tx.mint
      (spend_channel.operation d.spendChannelParams redeemer).1 [] = 1) :
    ∃ op, readOperation d.policies token tx = some op ∧ Performs d.policies tx op := by
  cases redeemer with
  | ChanOpenAck _ _ _ =>
    have hmem : (d.chan_open_ack, Hashes.noSpend,
        Hashes.marker (chan_open_ack.mint d.policies)) ∈ d.table := by simp [Hashes.table]
    obtain ⟨op, hop, hacks⟩ := chan_open_ack.mint_spec (marker_runs h hmem hredeemer hmint)
    exact ⟨op, hop, .openAck hacks⟩
  | ChanOpenConfirm _ _ =>
    have hmem : (d.chan_open_confirm, Hashes.channelSpend (chan_open_confirm.spend d.policies),
        Hashes.noMint) ∈ d.table := by simp [Hashes.table]
    exact absurd hmint (no_marker h hmem)
  | ChanCloseInit =>
    have hmem : (d.chan_close_init, Hashes.channelSpend (chan_close_init.spend d.policies),
        Hashes.noMint) ∈ d.table := by simp [Hashes.table]
    exact absurd hmint (no_marker h hmem)
  | ChanCloseConfirm _ _ =>
    have hmem : (d.chan_close_confirm,
        Hashes.channelSpend (chan_close_confirm.spend d.policies), Hashes.noMint) ∈ d.table := by
      simp [Hashes.table]
    exact absurd hmint (no_marker h hmem)
  | RecvPacket _ _ _ =>
    have hmem : (d.recv_packet, Hashes.noSpend,
        Hashes.marker (recv_packet.mint d.policies)) ∈ d.table := by simp [Hashes.table]
    obtain ⟨op, _, _, _, _, hop, -, hrecv⟩ :=
      recv_packet.mint_spec (marker_runs h hmem hredeemer hmint)
    exact ⟨op, hop, .recv hrecv⟩
  | SendPacket _ =>
    have hmem : (d.send_packet, Hashes.channelSpend (send_packet.spend d.policies),
        Hashes.marker (send_packet.mint d.policies)) ∈ d.table := by simp [Hashes.table]
    obtain ⟨op, _, _, hop, -, hsend⟩ :=
      send_packet.mint_spec (marker_runs h hmem hredeemer hmint)
    exact ⟨op, hop, .send hsend⟩
  | TimeoutPacket _ _ _ _ =>
    have hmem : (d.timeout_packet, Hashes.noSpend,
        Hashes.marker (timeout_packet.mint d.policies)) ∈ d.table := by simp [Hashes.table]
    obtain ⟨op, _, _, hop, -, htimeout⟩ :=
      timeout_packet.mint_spec (marker_runs h hmem hredeemer hmint)
    exact ⟨op, hop, .timeout htimeout⟩
  | AcknowledgePacket _ _ _ _ =>
    have hmem : (d.acknowledge_packet, Hashes.noSpend,
        Hashes.marker (acknowledge_packet.mint d.policies)) ∈ d.table := by simp [Hashes.table]
    obtain ⟨op, _, _, _, _, _, hop, -, hack⟩ :=
      acknowledge_packet.mint_spec (marker_runs h hmem hredeemer hmint)
    exact ⟨op, hop, .acknowledge hack⟩
  | PrunePacketHistory _ _ _ =>
    have hmem : (d.prune_packet_history, Hashes.noSpend,
        Hashes.marker (prune_packet_history.mint d.policies)) ∈ d.table := by
      simp [Hashes.table]
    obtain ⟨op, _, _, _, hop, -, hprune⟩ :=
      prune_packet_history.mint_spec (marker_runs h hmem hredeemer hmint)
    exact ⟨op, hop, .prune hprune⟩

omit [Builtins] in
/-- The input a script is run for is the one it finds by its reference. -/
theorem find_input_eq (hnodup : (tx.inputs.map Input.output_reference).Nodup) {i spent : Input}
    (hi : i ∈ tx.inputs) (h : find_input tx.inputs i.output_reference = some spent) :
    spent = i := by
  have href := List.find?_some h
  exact List.inj_on_of_nodup_map hnodup (List.mem_of_find?_eq_some h) hi (by simpa using href)

omit [Builtins] in
theorem find_input_self (hnodup : (tx.inputs.map Input.output_reference).Nodup) {i : Input}
    (hi : i ∈ tx.inputs) : find_input tx.inputs i.output_reference = some i := by
  cases hfind : find_input tx.inputs i.output_reference with
  | none =>
    have hno := List.find?_eq_none.mp hfind i hi
    simp at hno
  | some j => rw [find_input_eq hnodup hi hfind]

/-- An object that is spent goes on at its address, under its token. -/
theorem object_spent (h : d.Accepted L tx) {i : Input} (hi : i ∈ tx.inputs) {k : Kind}
    {data : Data} {token : AuthToken}
    (haddress : i.output.address.payment_credential = .Script (d.script k))
    (hdatum : i.output.datum = .InlineDatum data) (hnames : k.tokenIn data = some token)
    (hheld : auth.contain_auth_token i.output token = true) :
    ∃ out updated, Update k d.host_state_nft tx i.output token out updated ∧
      ObjectStep d.toHashes tx i data updated := by
  have hgiven : tx.datumOf i.output = some data := by simp [Transaction.datumOf, hdatum]
  cases k with
  | client =>
    cases data <;> simp only [Kind.tokenIn, reduceCtorEq, Option.some.injEq] at hnames
    rename_i datum
    subst hnames
    have hmem : (d.spend_client, d.clientSpend, Hashes.noMint) ∈ d.table := by
      simp [Hashes.table]
    obtain ⟨redeemer, -, hrun⟩ := h.spend_runs hi haddress (d.scripts_spec hmem).1
    simp only [Hashes.clientSpend, hgiven, Hashes.castDatum, Data.asClient, bind_eq_some,
      Option.map_some, Option.some.injEq] at hrun
    obtain ⟨_, rfl, _, -, hrun⟩ := hrun
    obtain ⟨spent, out, updated, hspent, hupdate, hstep⟩ := spend_client.spend_spec hrun
    rw [find_input_eq h.inputs_nodup hi hspent] at hupdate
    exact ⟨out, .client updated, hupdate, .client hstep⟩
  | connection =>
    cases data <;> simp only [Kind.tokenIn, reduceCtorEq, Option.some.injEq] at hnames
    rename_i datum
    subst hnames
    have hmem : (d.spend_connection, d.connectionSpend, Hashes.noMint) ∈ d.table := by
      simp [Hashes.table]
    obtain ⟨redeemer, -, hrun⟩ := h.spend_runs hi haddress (d.scripts_spec hmem).1
    simp only [Hashes.connectionSpend, hgiven, Hashes.castDatum, Data.asConnection,
      bind_eq_some, Option.map_some, Option.some.injEq] at hrun
    obtain ⟨_, rfl, _, -, hrun⟩ := hrun
    obtain ⟨spent, out, updated, hspent, hupdate, hstep⟩ := spend_connection.spend_spec hrun
    rw [find_input_eq h.inputs_nodup hi hspent] at hupdate
    exact ⟨out, .connection updated, hupdate, .connection hstep⟩
  | channel =>
    cases data <;> simp only [Kind.tokenIn, reduceCtorEq, Option.some.injEq] at hnames
    rename_i datum
    subst hnames
    have hmem : (d.spend_channel, d.channelSpendScript, Hashes.noMint) ∈ d.table := by
      simp [Hashes.table]
    obtain ⟨redeemer, -, hrun⟩ := h.spend_runs hi haddress (d.scripts_spec hmem).1
    simp only [Hashes.channelSpendScript, hgiven, Hashes.castDatum, Data.asChannel,
      bind_eq_some, Option.map_some, Option.some.injEq] at hrun
    obtain ⟨_, rfl, _, -, hrun⟩ := hrun
    obtain ⟨horders, hredeemer, hmint⟩ := spend_channel.spend_spec hrun
    obtain ⟨op, hop, hperforms⟩ := operation_performed h hredeemer hmint
    obtain ⟨input, connection_id, connection, client, hreads⟩ := readOperation_spec hop
    -- the one input with the token is the channel itself
    have hinput : i = input := by
      have hfilter : i ∈ tx.inputs.filter fun i =>
          auth.contain_auth_token i.output datum.token := List.mem_filter.mpr ⟨hi, hheld⟩
      rw [hreads.only] at hfilter
      exact List.mem_singleton.mp hfilter
    subst hinput
    have hspent := hreads.datum
    rw [← hreads.spent, hdatum] at hspent
    obtain rfl : datum = op.datum := by injection hspent with hspent; injection hspent
    refine ⟨op.updated_output, .channel op.updated_datum,
      ⟨horders, ?_, hreads.updated, ?_⟩, .channel hreads hperforms⟩
    · rw [hreads.spent]
      exact hreads.continued
    · rw [← hperforms.keeps.1]
      rfl

end Deployment

end cardano_ibc
