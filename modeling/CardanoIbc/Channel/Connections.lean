-- The handshake of a connection along a run of the ledger (connection_datum.ak,
-- spending_connection.ak, minting_connection_stt.ak and verifying_proof.ak): the states it goes
-- through, what never changes on the way, and the proof that an open connection rests on.
import CardanoIbc.Channel.Moves

namespace cardano_ibc

open validator_utils

/-- The connection once it is open, with the counterparty's id for it. -/
def ConnectionDatum.opened (c : ConnectionDatum) (connection_id : Bytes) : ConnectionDatum :=
  { c with state := { c.state with
      state := .Open
      counterparty := { c.state.counterparty with connection_id } } }

/-- A connection as its creation leaves it: the first state without an id of the counterparty, or
the second one with it. -/
structure BeginsConnection (c : ConnectionDatum) : Prop where
  basic : connection_end.validate_basic c.state = true
  begun : (c.state.state = .Init ∧ c.state.counterparty.connection_id = []) ∨
    (c.state.state = .TryOpen ∧
      connection_identifier_validator c.state.counterparty.connection_id = true)

/-- A proof of the counterparty's end of a connection: the client it is brought for, and what the
proof script is given. -/
structure EndProof where
  connection_id : Bytes
  client : ClientDatum
  height : Height
  params : VerifyMembershipParams

theorem Data.asSpendConnectionRedeemer_eq_some {data : Data} {redeemer : SpendConnectionRedeemer} :
    data.asSpendConnectionRedeemer = some redeemer ↔ data = .spendConnectionRedeemer redeemer := by
  cases data <;> simp [Data.asSpendConnectionRedeemer]

section Connections

variable [Builtins]

/-! ## What the scripts have seen -/

/-- A transaction brings the proof that the counterparty has its end of the connection in the state
given, under the id that the connection has for it. -/
structure EndProof.Brought (p : EndProof) (client_policy verify_policy : PolicyId)
    (tx : Transaction) (name : AssetName) (connection : ConnectionEnd)
    (stored : ConnectionState) : Prop where
  named : host_state_stt.connection_id_from_token_name name = some p.connection_id
  referred : validate_referred_client tx.reference_inputs name client_policy
    connection.client_id = some p.client
  active : ∃ valid_to, get_tx_valid_to tx.validity_range = some valid_to ∧
    clientIsActive p.client.state valid_to = true
  built : ∃ proof value, connection_pb.marshal_for_connection_end
      (counterpartyConnection connection p.connection_id stored) = some value ∧
    membershipAt connection p.client.state p.height proof
      (connection_path connection.counterparty.connection_id) value = some p.params
  given : verifyProofRedeemer tx.redeemers verify_policy = some (.VerifyMembership p.params)

/-- What the script of a connection lets a transaction make of it. -/
inductive ConnectionUpdate (client_policy verify_policy : PolicyId) (tx : Transaction)
    (c : ConnectionDatum) : SpendConnectionRedeemer → ConnectionDatum → Prop
  | ack {connection_id : Bytes} {p : EndProof} (init : c.state.state = .Init)
      (identified : connection_identifier_validator connection_id = true)
      (brought : p.Brought client_policy verify_policy tx c.token.name
        (c.opened connection_id).state .TryOpen) :
    ConnectionUpdate client_policy verify_policy tx c .ConnOpenAck (c.opened connection_id)
  | confirm {proof_ack : MerkleProof} {proof_height : Height} {p : EndProof}
      (tried : c.state.state = .TryOpen)
      (brought : p.Brought client_policy verify_policy tx c.token.name
        (c.opened c.state.counterparty.connection_id).state .Open) :
    ConnectionUpdate client_policy verify_policy tx c (.ConnOpenConfirm proof_ack proof_height)
      (c.opened c.state.counterparty.connection_id)

omit [Builtins] in
theorem connection_datum.openValid_begins {c : ConnectionDatum} {token : AuthToken}
    {state : ConnectionState} {known : Bool} (h : openValid c token state known = some true) :
    connection_end.validate_basic c.state = true ∧ c.state.state = state ∧
      (c.state.counterparty.connection_id != []) = known := by
  simp only [openValid, and_accepts, pure_eq_some, Bool.and_eq_true, beq_iff_eq] at h
  obtain ⟨⟨hbasic, -⟩, -, hstate, hknown⟩ := h
  exact ⟨hbasic, hstate, hknown⟩

variable {nft policy client_policy verify_policy : PolicyId} {script : ScriptHash}
  {tx : Transaction} {reference : OutputReference} {c : ConnectionDatum}

theorem mint_connection_stt.mint_begins {redeemer : MintConnectionRedeemer}
    (h : mint_connection_stt.mint client_policy verify_policy script nft redeemer policy tx =
      some true) :
    ∃ out c, find_script_outputs tx.outputs script = [out] ∧
      out.datum = .InlineDatum (.connection c) ∧ BeginsConnection c := by
  simp only [mint_connection_stt.mint, bind_eq_some, exactlyOne_eq_some,
    get_inline_datum_eq_some, Data.asHostState_eq_some, Data.asConnection_eq_some] at h
  obtain ⟨_, -, _, -, _, -, out, hout, _, hdatum, c, rfl, _, -, _, -, token, -, h⟩ := h
  refine ⟨out, c, hout, hdatum, ?_⟩
  cases redeemer with
  | ConnOpenInit =>
    simp only [bind_eq_some, and_accepts, pure_eq_some, Bool.and_eq_true] at h
    obtain ⟨valid, hvalid, ⟨-, rfl⟩, -⟩ := h
    obtain ⟨hbasic, hstate, hknown⟩ := connection_datum.openValid_begins hvalid
    exact ⟨hbasic, .inl ⟨hstate, by simpa using hknown⟩⟩
  | ConnOpenTry _ _ _ _ =>
    simp only [bind_eq_some, and_accepts, pure_eq_some, Bool.and_eq_true] at h
    obtain ⟨valid, hvalid, ⟨-, rfl⟩, -⟩ := h
    rw [and_accepts] at hvalid
    obtain ⟨hbasic, hstate, hknown⟩ := connection_datum.openValid_begins hvalid.1
    refine ⟨hbasic, .inr ⟨hstate, ?_⟩⟩
    -- the record itself was checked to have no id or a valid one
    simp only [connection_end.validate_basic, connection_counterparty.validate_basic,
      Bool.and_eq_true, Bool.or_eq_true, beq_iff_eq] at hbasic
    exact hbasic.2.1.1.resolve_left (by simpa using hknown)

omit [Builtins] in
/-- Where every field but the state and the counterparty's id is as it was, only those differ. -/
theorem ConnectionDatum.eq_opened {c new : ConnectionDatum} (htoken : new.token = c.token)
    (hclient : new.state.client_id = c.state.client_id) (hstate : new.state.state = .Open)
    (hversions : new.state.versions = c.state.versions)
    (hdelay : new.state.delay_period = c.state.delay_period)
    (hcounterparty : new.state.counterparty.client_id = c.state.counterparty.client_id)
    (hstart : new.state.counterparty.prefixKey = c.state.counterparty.prefixKey) :
    new = c.opened new.state.counterparty.connection_id := by
  obtain ⟨⟨_, _, _, ⟨_, _, _⟩, _⟩, _⟩ := new
  simp only at htoken hclient hstate hversions hdelay hcounterparty hstart
  simp only [ConnectionDatum.opened, htoken, hclient, hstate, hversions, hdelay, hcounterparty,
    hstart]

theorem spend_connection.spend_updates {redeemer : SpendConnectionRedeemer}
    (h : spend_connection.spend client_policy verify_policy nft (some c) redeemer reference tx =
      some true) :
    ∃ spent out updated, find_input tx.inputs reference = some spent ∧
      find_unique_continuation_output spent.output tx.outputs c.token = some out ∧
      out.datum = .InlineDatum (.connection updated) ∧
      ConnectionUpdate client_policy verify_policy tx c redeemer updated := by
  simp only [spend_connection.spend, bind_eq_some, expect_eq_some, get_inline_datum_eq_some,
    Data.asConnection_eq_some, Option.some.injEq] at h
  obtain ⟨_, -, spent, hspent, _, rfl, -, -, out, hout, _, hdatum, updated, rfl, -, -, valid_to,
    hto, sequence, hsequence, client, hclient, h⟩ := h
  refine ⟨spent, out, updated, hspent, hout, hdatum, ?_⟩
  have hnamed : host_state_stt.connection_id_from_token_name c.token.name =
      some (format_connection_identifier sequence) := by
    simp [host_state_stt.connection_id_from_token_name, hsequence]
  cases redeemer with
  | ConnOpenAck =>
    simp only [and_accepts, connection_datum.is_connection_open_ack_valid, bind_eq_some,
      expect_eq_some, pure_eq_some, Bool.and_eq_true, beq_iff_eq,
      spend_connection.validate_conn_open_ack_proof] at h
    obtain ⟨⟨value, hvalue, redeemer, hgiven, hproof⟩, ⟨-, hinit, -, hidentified,
      ⟨⟨⟨⟨⟨htoken, hid⟩, hopen⟩, hversions⟩, hdelay⟩, hcounterparty⟩, hstart⟩, hactive⟩ := h
    have heq := ConnectionDatum.eq_opened htoken hid hopen hversions hdelay hcounterparty hstart
    split at hproof
    · rename_i params
      simp only [bind_eq_some, pure_eq_some, beq_iff_eq] at hproof
      obtain ⟨_, hbuilt, rfl⟩ := hproof
      rw [heq] at hvalue hbuilt ⊢
      exact .ack hinit hidentified (p := ⟨_, client, params.height, params⟩)
        ⟨hnamed, hclient, ⟨valid_to, hto, hactive⟩, ⟨_, value, hvalue, hbuilt⟩, hgiven⟩
    · cases hproof
  | ConnOpenConfirm proof_ack proof_height =>
    simp only [and_accepts, connection_datum.is_connection_open_confirm_valid, bind_eq_some,
      expect_eq_some, pure_eq_some, Bool.and_eq_true, beq_iff_eq,
      spend_connection.validate_conn_open_confirm_proof, provesMembership] at h
    obtain ⟨hactive, ⟨-, htried, ⟨⟨⟨⟨htoken, hid⟩, hopen⟩, hversions⟩, hdelay⟩, hcounterparty⟩,
      value, hvalue, redeemer, hgiven, params, hbuilt, rfl⟩ := h
    have heq := ConnectionDatum.eq_opened htoken hid hopen hversions hdelay
      (by rw [hcounterparty]) (by rw [hcounterparty])
    rw [hcounterparty] at heq
    rw [heq] at hvalue hbuilt ⊢
    exact .confirm htried (p := ⟨_, client, proof_height, params⟩)
      ⟨hnamed, hclient, ⟨valid_to, hto, hactive⟩, ⟨_, value, hvalue, hbuilt⟩, hgiven⟩

/-! ## The proofs that are accepted -/

variable {d : Deployment} {start L : Ledger} {past : History} {host : Input} {hd : HostStateDatum}
  {n : AssetName}

/-- The proof script has accepted a proof for the connection with this token: under a state of the
counterparty that the connection's own client knows, and while that client is active, the
counterparty's store has an end of the connection where the connection says it is, in the state
given, that names this connection, the two clients, the versions and the delay. -/
structure EndProof.Accepted (p : EndProof) (d : Hashes) (L : Ledger) (tx : Transaction)
    (n : AssetName) (connection : ConnectionEnd) (stored : ConnectionState) : Prop where
  named : host_state_stt.connection_id_from_token_name n = some p.connection_id
  own_client : ∃ client_name, expected_client_token n d.mint_client connection.client_id =
      some { policy_id := d.mint_client, name := client_name } ∧
    d.Record .client L client_name (.client p.client)
  active : ∃ valid_to, get_tx_valid_to tx.validity_range = some valid_to ∧
    clientIsActive p.client.state valid_to = true
  known : get_first p.client.state.consensus_states p.height = some p.params.cons_state
  path : merkle.apply_prefix connection.counterparty.prefixKey (merkle.new_merkle_path
    [connection_path connection.counterparty.connection_id]) = some p.params.path
  written : connection_pb.marshal_for_connection_end
    (counterpartyConnection connection p.connection_id stored) = some p.params.value
  verified : ∃ valid_from, get_tx_valid_from tx.validity_range = some valid_from ∧
    client_state.verify_membership p.params (valid_from * 1000000)
      (client_datum.processed_height_from_time (valid_from * 1000000)) = some true

theorem EndProof.Brought.accepted {p : EndProof} {connection : ConnectionEnd}
    {stored : ConnectionState}
    (b : p.Brought d.mint_client d.verify_proof tx n connection stored) (h : d.Accepted L tx) :
    p.Accepted d.toHashes L tx n connection stored := by
  obtain ⟨proof, value, hwritten, hbuilt⟩ := b.built
  simp only [membershipAt, bind_eq_some, pure_eq_some] at hbuilt
  obtain ⟨_, -, path, hpath, consensus_state, hknown, _, -, _, -, hparams⟩ := hbuilt
  have hrun := verify_proof_runs h b.given
  simp only [verify_proof.mint, bind_eq_some] at hrun
  obtain ⟨valid_from, hfrom, _, -, hverified⟩ := hrun
  have hclient := b.referred
  simp only [validate_referred_client, bind_eq_some, get_inline_datum_eq_some,
    Data.asClient_eq_some] at hclient
  obtain ⟨token, htoken, i, hfound, _, hdatum, rfl⟩ := hclient
  have hpolicy : token = { policy_id := d.mint_client, name := token.name } := by
    simp only [expected_client_token, bind_eq_some, pure_eq_some] at htoken
    obtain ⟨_, -, rfl⟩ := htoken
    rfl
  have hrecord : d.Record .client L token.name (.client p.client) := by
    refine Threads.record_of_reference h (List.mem_of_find?_eq_some hfound) ?_ hdatum
    have hheld := List.find?_some hfound
    rw [hpolicy] at hheld
    exact hheld
  rw [← hparams] at hverified
  exact { named := b.named
          own_client := ⟨token.name, by rw [← hpolicy]; exact htoken, hrecord⟩
          active := b.active
          known := by rw [← hparams]; exact hknown
          path := by rw [← hparams]; exact hpath
          written := by rw [← hparams]; exact hwritten
          verified := ⟨valid_from, hfrom, by rw [← hparams]; exact hverified⟩ }

/-! ## The record of a connection -/

omit [Builtins] in
/-- The transaction spends the connection with this token, with this order. -/
def Hashes.SpendsConnection (d : Hashes) (n : AssetName) (tx : Transaction)
    (redeemer : SpendConnectionRedeemer) : Prop :=
  ∃ i ∈ tx.inputs, 0 < amount (d.policy .connection) n i ∧
    get_first tx.redeemers (.Spend i.output_reference) = some (.spendConnectionRedeemer redeemer)

/-- What a transaction on a ledger makes of a connection's record. -/
inductive ConnectionMove (d : Hashes) (n : AssetName) (L : Ledger) (tx : Transaction)
    (c : ConnectionDatum) : ConnectionDatum → Prop
  | ack {connection_id : Bytes} {p : EndProof}
      (ordered : d.SpendsConnection n tx .ConnOpenAck) (init : c.state.state = .Init)
      (identified : connection_identifier_validator connection_id = true)
      (accepted : p.Accepted d L tx n (c.opened connection_id).state .TryOpen) :
    ConnectionMove d n L tx c (c.opened connection_id)
  | confirm {proof_ack : MerkleProof} {proof_height : Height} {p : EndProof}
      (ordered : d.SpendsConnection n tx (.ConnOpenConfirm proof_ack proof_height))
      (tried : c.state.state = .TryOpen)
      (accepted : p.Accepted d L tx n (c.opened c.state.counterparty.connection_id).state .Open) :
    ConnectionMove d n L tx c (c.opened c.state.counterparty.connection_id)

/-- The transaction creates the connection with this token. -/
structure CreatesConnection (d : Hashes) (tx : Transaction) (n : AssetName)
    (c : ConnectionDatum) : Prop where
  minted : assets.quantity_of tx.mint d.mint_connection n = 1
  output : ∃ out ∈ tx.outputs, out.datum = .InlineDatum (.connection c)
  begins : BeginsConnection c

theorem createsConnection_of_creation (h : d.Accepted L tx) {order : HostStateRedeemer}
    {out : Output}
    (creation : Creation .connection d.host_state_nft (d.policy .connection) (d.script .connection)
      tx host hd order { policy_id := d.policy .connection, name := n } out (.connection c)) :
    CreatesConnection d.toHashes tx n c := by
  have hminted : assets.quantity_of tx.mint d.mint_connection n = 1 :=
    (auth.mints_exactly creation.minted).1
  have hn : assets.quantity_of tx.mint d.mint_connection n ≠ 0 := by omega
  have hmem : (d.mint_connection, Hashes.noSpend, d.connectionMint) ∈ d.table := by
    simp [Hashes.table]
  obtain ⟨redeemer, -, hmint⟩ := h.mint_runs hn (d.scripts_spec hmem).2
  simp only [Hashes.connectionMint, bind_eq_some] at hmint
  obtain ⟨_, -, hmint⟩ := hmint
  obtain ⟨out', c', hout, hdatum, hbegins⟩ := mint_connection_stt.mint_begins hmint
  obtain rfl : out' = out := by simpa using hout.symm.trans creation.output
  have hsame := creation.datum
  rw [hdatum] at hsame
  cases hsame
  have hfound : out' ∈ find_script_outputs tx.outputs d.spend_connection := by
    rw [hout]
    exact List.mem_singleton_self out'
  exact ⟨hminted, ⟨out', List.mem_of_mem_filter hfound, hdatum⟩, hbegins⟩

/-- A connection that is spent takes a step of its handshake. -/
theorem Threads.connection_moves (t : Threads d.toHashes L host hd) (h : d.Accepted L tx)
    {i : Input} (hi : i ∈ tx.inputs) (hheld : 0 < amount (d.policy .connection) n i)
    (hrecord : d.Record .connection L n (.connection c)) :
    ∃ c', ConnectionMove d.toHashes n L tx c c' ∧
      d.Record .connection (L.apply tx h) n (.connection c') := by
  obtain ⟨u, hu, hheld', hdatum⟩ := hrecord
  obtain rfl := t.holder_unique hu (h.inputs_live i hi) hheld' hheld
  obtain ⟨old, s, object⟩ := t.objects .connection u hu n hheld
  have hold := object.datum
  rw [hdatum] at hold
  cases hold
  have hnames := object.names
  simp only [Kind.tokenIn, Option.some.injEq] at hnames
  have hgiven : tx.datumOf u.output = some (.connection c) := by simp [Transaction.datumOf, hdatum]
  have hmem : (d.spend_connection, d.connectionSpend, Hashes.noMint) ∈ d.table := by
    simp [Hashes.table]
  obtain ⟨redeemer, hredeemer, hrun⟩ := h.spend_runs hi object.at_script (d.scripts_spec hmem).1
  simp only [Hashes.connectionSpend, hgiven, Hashes.castDatum, Data.asConnection, bind_eq_some,
    Option.map_some, Option.some.injEq, Data.asSpendConnectionRedeemer_eq_some] at hrun
  obtain ⟨_, rfl, order, rfl, hrun⟩ := hrun
  obtain ⟨spent, out, updated, hspent, hout, hnew, hupdate⟩ := spend_connection.spend_updates hrun
  rw [Deployment.find_input_eq h.inputs_nodup hi hspent] at hout
  obtain ⟨hmem, -, hone⟩ := find_unique_continuation_output_spec hout
  obtain ⟨v, hv, rfl⟩ := Transaction.exists_created hmem
  have hafter : d.Record .connection (L.apply tx h) n (.connection updated) := by
    refine ⟨v, Ledger.mem_apply.mpr (.inr hv), ?_, hnew⟩
    rw [hnames] at hone
    rw [amount, hone]
    exact Int.one_pos
  refine ⟨updated, ?_, hafter⟩
  have hname : c.token.name = n := by rw [hnames]
  have hordered : d.SpendsConnection n tx order := ⟨u, hi, hheld, hredeemer⟩
  cases hupdate with
  | ack init identified brought =>
    rw [hname] at brought
    exact .ack hordered init identified (brought.accepted h)
  | confirm tried brought =>
    rw [hname] at brought
    exact .confirm hordered tried (brought.accepted h)

/-- A transaction leaves a connection as it is or takes it a step further. -/
theorem Threads.connection_step (t : Threads d.toHashes L host hd) (h : d.Accepted L tx)
    (hrecord : d.Record .connection L n (.connection c)) :
    ∃ c', (c' = c ∨ ConnectionMove d.toHashes n L tx c c') ∧
      d.Record .connection (L.apply tx h) n (.connection c') := by
  rcases t.record_step h hrecord with ⟨-, hafter⟩ | ⟨i, hi, hheld, -⟩
  · exact ⟨c, .inl rfl, hafter⟩
  · obtain ⟨c', hmove, hafter⟩ := t.connection_moves h hi hheld hrecord
    exact ⟨c', .inr hmove, hafter⟩

/-- A connection's record after a transaction is the one before, or a step further, or the
connection is created by the transaction. -/
theorem Threads.connection_origin (t : Threads d.toHashes L host hd) (h : d.Accepted L tx)
    (hnotFinal : d.finalises tx = false)
    (hrecord : d.Record .connection (L.apply tx h) n (.connection c)) :
    (∃ c₀, d.Record .connection L n (.connection c₀) ∧
      (c = c₀ ∨ ConnectionMove d.toHashes n L tx c₀ c)) ∨ CreatesConnection d.toHashes tx n c := by
  rcases t.record_origin h hrecord with ⟨hsame, -⟩ |
    ⟨i, _, s, out, hspent, hheld, hbefore, object, update, step⟩ | ⟨order, out, creation⟩
  · exact .inl ⟨c, hsame, .inl rfl⟩
  · cases step with
    | @connection old _ _ =>
      obtain ⟨c', hmove, hafter⟩ := t.connection_moves h hspent hheld hbefore
      obtain ⟨host', hd', m⟩ := t.host_move h hnotFinal
      have hsame := (t.step h m).record_unique hrecord hafter
      cases hsame
      exact .inl ⟨old, hbefore, .inr hmove⟩
  · exact .inr (createsConnection_of_creation h creation)

/-! ## The handshake -/

/-- How far a connection has come that was created as `first`. An open one has had a proof
accepted on the way. -/
inductive Handshake (d : Hashes) (past : History) (n : AssetName) (first : ConnectionDatum) :
    ConnectionDatum → Prop
  | begun : Handshake d past n first first
  | acknowledged {connection_id : Bytes} {e : Ledger × Transaction} {p : EndProof}
      (init : first.state.state = .Init)
      (unknown : first.state.counterparty.connection_id = [])
      (identified : connection_identifier_validator connection_id = true) (step : e ∈ past)
      (ordered : d.SpendsConnection n e.2 .ConnOpenAck)
      (accepted : p.Accepted d e.1 e.2 n (first.opened connection_id).state .TryOpen) :
    Handshake d past n first (first.opened connection_id)
  | confirmed {proof_ack : MerkleProof} {proof_height : Height} {e : Ledger × Transaction}
      {p : EndProof} (tried : first.state.state = .TryOpen) (step : e ∈ past)
      (ordered : d.SpendsConnection n e.2 (.ConnOpenConfirm proof_ack proof_height))
      (accepted : p.Accepted d e.1 e.2 n
        (first.opened first.state.counterparty.connection_id).state .Open) :
    Handshake d past n first (first.opened first.state.counterparty.connection_id)

theorem Handshake.later {first : ConnectionDatum} (hs : Handshake d.toHashes past n first c)
    (e : Ledger × Transaction) : Handshake d.toHashes (e :: past) n first c := by
  cases hs with
  | begun => exact .begun
  | acknowledged init unknown identified step ordered accepted =>
    exact .acknowledged init unknown identified (List.mem_cons_of_mem e step) ordered accepted
  | confirmed tried step ordered accepted =>
    exact .confirmed tried (List.mem_cons_of_mem e step) ordered accepted

theorem Handshake.step {first c' : ConnectionDatum} (hbegins : BeginsConnection first)
    (hs : Handshake d.toHashes past n first c) (hmove : ConnectionMove d.toHashes n L tx c c') :
    Handshake d.toHashes ((L, tx) :: past) n first c' := by
  cases hs with
  | begun =>
    cases hmove with
    | ack ordered init identified accepted =>
      refine .acknowledged init ?_ identified List.mem_cons_self ordered accepted
      rcases hbegins.begun with ⟨-, hunknown⟩ | ⟨htried, -⟩
      · exact hunknown
      · rw [init] at htried
        cases htried
    | confirm ordered tried accepted =>
      exact .confirmed tried List.mem_cons_self ordered accepted
  | acknowledged =>
    cases hmove with
    | ack _ init => cases init
    | confirm _ tried => cases tried
  | confirmed =>
    cases hmove with
    | ack _ init => cases init
    | confirm _ tried => cases tried

/-- A connection that was created in the run has come as far as its handshake lets it. -/
theorem Run.handshake (t : Threads d.toHashes start host hd)
    (hlater : ∀ u ∈ start.utxos, ¬ 0 < amount (d.policy .connection) n u)
    (hrun : Run d start past L) (hrecord : d.Record .connection L n (.connection c)) :
    ∃ first, (∃ e ∈ past, CreatesConnection d.toHashes e.2 n first) ∧
      Handshake d.toHashes past n first c := by
  induction hrun generalizing c with
  | start =>
    obtain ⟨u, hu, hheld, -⟩ := hrecord
    exact absurd hheld (hlater u hu)
  | @step past L tx before h notFinal ih =>
    obtain ⟨host, hd, t⟩ := before.threads t
    rcases t.connection_origin h notFinal hrecord with ⟨c₀, hbefore, hmove⟩ | hcreates
    · obtain ⟨first, ⟨e, he, hcreates⟩, hs⟩ := ih hbefore
      refine ⟨first, ⟨e, List.mem_cons_of_mem _ he, hcreates⟩, ?_⟩
      rcases hmove with rfl | hmove
      · exact hs.later _
      · exact hs.step hcreates.begins hmove
    · exact ⟨c, ⟨_, List.mem_cons_self, hcreates⟩, .begun⟩

/-- Every connection that is created in a run is as it was created, or it was opened from there by
the one step its first state allows, with a proof of the counterparty's end accepted then. The
next transaction leaves it or takes such a step, and nothing changes it once it is open. -/
theorem connection_handshake (t : Threads d.toHashes start host hd)
    (hlater : ∀ u ∈ start.utxos, ¬ 0 < amount (d.policy .connection) n u)
    (hrun : Run d start past L) (hrecord : d.Record .connection L n (.connection c)) :
    (∃ first, (∃ e ∈ past, CreatesConnection d.toHashes e.2 n first) ∧
      Handshake d.toHashes past n first c) ∧
    (∀ tx (h : d.Accepted L tx), ∃ c', (c' = c ∨ ConnectionMove d.toHashes n L tx c c') ∧
      d.Record .connection (L.apply tx h) n (.connection c')) ∧
    (c.state.state = .Open → ∀ tx (h : d.Accepted L tx),
      d.Record .connection (L.apply tx h) n (.connection c)) := by
  obtain ⟨host, hd, t'⟩ := hrun.threads t
  refine ⟨hrun.handshake t hlater hrecord, fun tx h => t'.connection_step h hrecord, ?_⟩
  intro hopen tx h
  obtain ⟨c', rfl | hmove, hafter⟩ := t'.connection_step h hrecord
  · exact hafter
  · cases hmove with
    | ack _ init =>
      rw [hopen] at init
      cases init
    | confirm _ tried =>
      rw [hopen] at tried
      cases tried

end Connections

/-! ## A connection that is opened -/

section Sample

local instance connectionsBuiltins : Builtins := runningBuiltins

/-- The connection of the other samples at its beginning. -/
def shakenConnection : ConnectionDatum :=
  { runningConnection with
    state := { runningConnection.state with
      state := .Init
      counterparty := { runningConnection.state.counterparty with connection_id := [] } } }

def shakenOpen : ConnectionDatum := shakenConnection.opened (utf8 "connection-3")

/-- What the counterparty has in its store. -/
def shakenValue : Bytes :=
  (connection_pb.marshal_for_connection_end
    (counterpartyConnection shakenOpen.state (utf8 "connection-0") .TryOpen)).getD []

def shakenPath : Bytes := connection_path (utf8 "connection-3")

def shakenProof : MerkleProof :=
  onlyEntryProof shakenPath shakenValue
    0xefde6fc38760eb332801533c0b9509b89a6aed2e573d607b0288b9559091a074

/-- The client knows the counterparty's store with that one entry. -/
def shakenClient : ClientDatum :=
  { state :=
      { client_state := firstClientState
        consensus_states := [(runningHeight 5, runningConsensus
          0xd56e723b657ae128d7058a69a1ea137aa46b0df3ba3f94bf2a93db83b957b019)]
        processed_times := [(runningHeight 5, 1500000000)]
        processed_heights := [(runningHeight 5, 0)] }
    token := runningClientToken }

def shakenHost (version connections : Int) (root : Bytes) : HostStateDatum :=
  { sampleHostDatum with
    state := { sampleHostDatum.state with
      version
      ibc_state_root := root
      next_client_sequence := 1
      next_connection_sequence := connections } }

def shakenFirstHost : HostStateDatum := shakenHost 0 0 host_state.empty_ibc_state_root

def shakenHostInput : Input := runningInput 0 (sampleHostOutput shakenFirstHost)

def shakenClientInput : Input :=
  runningInput 3 (runningObject .client runningClientToken (.client shakenClient))

/-- A bridge with a client and nothing else. -/
def shakenLedger : Ledger where
  utxos := [shakenHostInput, sampleWallet, shakenClientInput]
  past := [List.replicate 32 90, List.replicate 32 91]
  nodup := by decide
  created := by decide
  nonneg := by decide

theorem shakenLedger_threaded (k : Kind) :
    sampleBridge.threaded shakenLedger shakenFirstHost.state k = true := by
  cases k <;> decide +kernel

theorem shakenLedger_threads :
    Threads sampleBridge.toHashes shakenLedger shakenHostInput shakenFirstHost where
  nonce_spent := by decide
  nonce_past := by decide
  host_live := by decide
  host_nft := by decide
  host_supply := by decide
  host_script := rfl
  host_datum := rfl
  counted k := by cases k <;> decide
  objects k u hu n hn := (threaded_spec (shakenLedger_threaded k) hu hn).1
  unique k n := threaded_unique (shakenLedger_threaded k) n

def shakenOutput (c : ConnectionDatum) : Output :=
  runningObject .connection runningConnectionToken (.connection c)

def shakenSecondHost : Output := sampleHostOutput (shakenHost 1 1
  (bigEndian 32 0xff82aabec10abb327abf8f0218adb886e04608e7f127f1bec4135fc914ebcfec))

/-- Somebody begins the handshake. -/
def beginTx : Transaction :=
  { inputs := [shakenHostInput, sampleWallet]
    reference_inputs := [shakenClientInput]
    outputs := [shakenSecondHost, shakenOutput shakenConnection, runningChange 7800000]
    fee := 200000
    mint := [(sampleBridge.mint_connection, runningConnectionToken.name, 1)]
    validity_range := runningValidity
    extra_signatories := []
    redeemers :=
      [(.Spend shakenHostInput.output_reference, .hostStateRedeemer
          (.CreateConnection (List.replicate 64 ibc_state_commitment.empty_hash))),
        (.Mint sampleBridge.mint_connection, .mintConnectionRedeemer .ConnOpenInit)]
    datums := []
    id := List.replicate 32 95 }

theorem beginTx_accepted : sampleBridge.Accepted shakenLedger beginTx :=
  Ledger.accepts_iff.mp (by decide +kernel)

def begunLedger : Ledger := shakenLedger.apply beginTx beginTx_accepted

def begunInput (index : Nat) (output : Output) : Input :=
  { output_reference := { transaction_id := beginTx.id, output_index := index }, output }

def shakenParams : Option VerifyMembershipParams :=
  membershipAt shakenOpen.state shakenClient.state (runningHeight 5) shakenProof shakenPath
    shakenValue

/-- The counterparty has answered, and the connection is opened. -/
def ackTx : Transaction :=
  { inputs := [begunInput 0 shakenSecondHost, begunInput 1 (shakenOutput shakenConnection),
      begunInput 2 (runningChange 7800000)]
    reference_inputs := [shakenClientInput]
    outputs := [sampleHostOutput (shakenHost 2 1
        (bigEndian 32 0xa4eef162ec4c7944fc03c9a4fc056e6112bb7f6d65574b6152024273c33086c4)),
      shakenOutput shakenOpen,
      { sampleWallet.output with
        value := [lovelace 7600000, (sampleBridge.verify_proof, [], 1)] }]
    fee := 200000
    mint := [(sampleBridge.verify_proof, [], 1)]
    validity_range := runningValidity
    extra_signatories := []
    redeemers :=
      [(.Spend (begunInput 0 shakenSecondHost).output_reference, .hostStateRedeemer
          (.UpdateConnection (List.replicate 64 ibc_state_commitment.empty_hash))),
        (.Spend (begunInput 1 (shakenOutput shakenConnection)).output_reference,
          .spendConnectionRedeemer .ConnOpenAck)] ++
      shakenParams.toList.map fun params =>
        (.Mint sampleBridge.verify_proof, .verifyProof (.VerifyMembership params))
    datums := []
    id := List.replicate 32 96 }

theorem ackTx_accepted : sampleBridge.Accepted begunLedger ackTx :=
  Ledger.accepts_iff.mp (by decide +kernel)

/-- The connection of the sample is open, and has got there as it should. -/
theorem the_shaken_connection_is_open :
    shakenOpen.state.state = .Open ∧
      (∃ first, (∃ e ∈ [(begunLedger, ackTx), (shakenLedger, beginTx)],
          CreatesConnection sampleBridge.toHashes e.2 runningConnectionToken.name first) ∧
        Handshake sampleBridge.toHashes [(begunLedger, ackTx), (shakenLedger, beginTx)]
          runningConnectionToken.name first shakenOpen) ∧
      (∀ tx (h : sampleBridge.Accepted (begunLedger.apply ackTx ackTx_accepted) tx), ∃ c',
        (c' = shakenOpen ∨ ConnectionMove sampleBridge.toHashes runningConnectionToken.name
          (begunLedger.apply ackTx ackTx_accepted) tx shakenOpen c') ∧
        sampleBridge.Record .connection ((begunLedger.apply ackTx ackTx_accepted).apply tx h)
          runningConnectionToken.name (.connection c')) ∧
      (shakenOpen.state.state = .Open →
        ∀ tx (h : sampleBridge.Accepted (begunLedger.apply ackTx ackTx_accepted) tx),
          sampleBridge.Record .connection ((begunLedger.apply ackTx ackTx_accepted).apply tx h)
            runningConnectionToken.name (.connection shakenOpen)) := by
  have hrun : Run sampleBridge shakenLedger [(begunLedger, ackTx), (shakenLedger, beginTx)]
      (begunLedger.apply ackTx ackTx_accepted) :=
    .step (.step .start beginTx_accepted (by decide)) ackTx_accepted (by decide)
  have hrecord : sampleBridge.Record .connection (begunLedger.apply ackTx ackTx_accepted)
      runningConnectionToken.name (.connection shakenOpen) := by
    have hmem : shakenOutput shakenOpen ∈ ackTx.outputs := by simp [ackTx]
    obtain ⟨u, hu, hout⟩ := Transaction.exists_created hmem
    refine ⟨u, Ledger.mem_apply.mpr (.inr hu), ?_, by rw [hout]; rfl⟩
    rw [amount, hout]
    decide
  exact ⟨rfl, connection_handshake shakenLedger_threads (by decide) hrun hrecord⟩

end Sample

end cardano_ibc
