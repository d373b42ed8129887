-- A channel along a run of the ledger: what a transaction makes of its record, the connection and
-- the client it runs over, and what a proof that was taken says about the counterparty's store.
import CardanoIbc.Ledger.Authenticity
import CardanoIbc.Ledger.Runs

namespace cardano_ibc

open validator_utils

section Moves

variable [Builtins]

/-! ## The record of a channel -/

omit [Builtins] in
/-- The order a transaction spends the channel with this token with. -/
def Hashes.orderFor (d : Hashes) (n : AssetName) (tx : Transaction) :
    Option SpendChannelRedeemer := do
  let input ← tx.inputs.find? fun i => 0 < amount (d.policy .channel) n i
  (← get_first tx.redeemers (.Spend input.output_reference)).asSpendChannelRedeemer

/-- What a transaction makes of a channel's record. -/
inductive ChannelMove (d : Hashes) (n : AssetName) (tx : Transaction) :
    ChannelDatum → ChannelDatum → Prop
  | stays {c : ChannelDatum} (left : d.orderFor n tx = none) : ChannelMove d n tx c c
  | moves {op : Operation} {input : Input} {connection_id : Bytes} {connection : ConnectionDatum}
      {client : ClientDatum} (ordered : d.orderFor n tx = some op.redeemer)
      (reads : Reads d.policies op.datum.token tx op input connection_id connection client)
      (performs : Performs d.policies tx op) : ChannelMove d n tx op.datum op.updated_datum

variable {d : Deployment} {start L : Ledger} {tx : Transaction} {past : History} {n : AssetName}
  {host : Input} {hd : HostStateDatum} {c : ChannelDatum}

omit [Builtins] in
theorem orderFor_of_unspent (hleft : ∀ i ∈ tx.inputs, ¬ 0 < amount (d.policy .channel) n i) :
    d.orderFor n tx = none := by
  have hnone : (tx.inputs.find? fun i => decide (0 < amount (d.policy .channel) n i)) = none := by
    rw [List.find?_eq_none]
    intro i hi
    simpa using hleft i hi
  simp [Hashes.orderFor, hnone]

/-- The order is the one the channel is spent with, as no other input has its token. -/
theorem Threads.orderFor_of_spent (t : Threads d.toHashes L host hd) (h : d.Accepted L tx)
    {i : Input} (hi : i ∈ tx.inputs) (hheld : 0 < amount (d.policy .channel) n i)
    {redeemer : SpendChannelRedeemer}
    (hredeemer : get_first tx.redeemers (.Spend i.output_reference) =
      some (.spendChannelRedeemer redeemer)) : d.orderFor n tx = some redeemer := by
  have hfound : (tx.inputs.find? fun i => decide (0 < amount (d.policy .channel) n i)) = some i := by
    cases hfind : tx.inputs.find? fun i => decide (0 < amount (d.policy .channel) n i) with
    | none =>
      have hno := List.find?_eq_none.mp hfind i hi
      exact absurd hheld (by simpa using hno)
    | some j =>
      have hj : 0 < amount (d.policy .channel) n j := by simpa using List.find?_some hfind
      rw [t.holder_unique (h.inputs_live j (List.mem_of_find?_eq_some hfind))
        (h.inputs_live i hi) hj hheld]
  simp [Hashes.orderFor, hfound, hredeemer, Data.asSpendChannelRedeemer]

/-- Whatever spends a channel's token carries out an operation on its record. -/
theorem Threads.order_performed (t : Threads d.toHashes L host hd) (h : d.Accepted L tx)
    {order : SpendChannelRedeemer} (hordered : d.orderFor n tx = some order) :
    ∃ op input connection_id connection client, op.redeemer = order ∧
      d.Record .channel L n (.channel op.datum) ∧
      Reads d.policies op.datum.token tx op input connection_id connection client ∧
      Performs d.policies tx op := by
  have hspent := hordered
  simp only [Hashes.orderFor, Option.bind_eq_bind, Option.bind_eq_some_iff] at hspent
  obtain ⟨input, hfind, -⟩ := hspent
  have hi := List.mem_of_find?_eq_some hfind
  have hheld : 0 < amount (d.policy .channel) n input := by simpa using List.find?_some hfind
  obtain ⟨old, s, _, _, object, -, hstep⟩ := t.spent_object h hi hheld
  have hnames := object.names
  cases hstep with
  | client _ => simp [Kind.tokenIn] at hnames
  | connection _ => simp [Kind.tokenIn] at hnames
  | channel reads performs =>
    have hsame := t.orderFor_of_spent h hi hheld reads.redeemer
    rw [hordered, Option.some.injEq] at hsame
    exact ⟨_, input, _, _, _, hsame.symm, ⟨input, h.inputs_live input hi, hheld, object.datum⟩,
      reads, performs⟩

theorem Threads.channel_step (t : Threads d.toHashes L host hd) (h : d.Accepted L tx)
    (hrecord : d.Record .channel L n (.channel c)) :
    ∃ c', ChannelMove d.toHashes n tx c c' ∧ d.Record .channel (L.apply tx h) n (.channel c') := by
  rcases t.record_step h hrecord with ⟨hleft, hafter⟩ | ⟨i, hi, hheld, new, hstep, hafter⟩
  · exact ⟨c, .stays (orderFor_of_unspent hleft), hafter⟩
  · cases hstep with
    | channel reads performs =>
      exact ⟨_, .moves (t.orderFor_of_spent h hi hheld reads.redeemer) reads performs, hafter⟩

/-- The channel is created by the transaction, over a connection and a client it refers to. -/
structure OpenedBy (d : Hashes) (tx : Transaction) (c : ChannelDatum) : Prop where
  opens : Opens c
  connected : ∃ connection_id connection client, c.state.channel.connection_hops = [connection_id] ∧
    validate_referred_connection_and_client tx.reference_inputs c.token.name d.mint_client
      d.mint_connection connection_id = some (connection, client)

theorem openedBy_of_creation (h : d.Accepted L tx) {order : HostStateRedeemer} {out : Output}
    {token : AuthToken}
    (creation : Creation .channel d.host_state_nft (d.policy .channel) (d.script .channel) tx host
      hd order token out (.channel c)) : OpenedBy d.toHashes tx c := by
  have hpolicy : token.policy_id = d.mint_channel := objectToken_policy creation.token_next
  have hminted := (auth.mints_exactly creation.minted).1
  rw [hpolicy] at hminted
  have hn : assets.quantity_of tx.mint d.mint_channel token.name ≠ 0 := by omega
  have hmem : (d.mint_channel, Hashes.noSpend, d.channelMint) ∈ d.table := by simp [Hashes.table]
  obtain ⟨redeemer, -, hmint⟩ := h.mint_runs hn (d.scripts_spec hmem).2
  simp only [Hashes.channelMint, bind_eq_some] at hmint
  obtain ⟨_, -, hmint⟩ := hmint
  obtain ⟨out', c', connection_id, connection, client, hout, hdatum, hopens, hhops, hreferred⟩ :=
    mint_channel_stt.mint_opens hmint
  have hsame : [out'] = [out] := hout.symm.trans creation.output
  obtain rfl : out' = out := by simpa using hsame
  have hc := creation.datum
  rw [hdatum] at hc
  obtain rfl : c' = c := by injection hc with hc; injection hc
  exact ⟨hopens, connection_id, connection, client, hhops, hreferred⟩

/-- A channel's record after a transaction is made by it from the one before, or the channel is
created by it. -/
theorem Threads.channel_origin (t : Threads d.toHashes L host hd) (h : d.Accepted L tx)
    (hrecord : d.Record .channel (L.apply tx h) n (.channel c)) :
    (∃ c₀, d.Record .channel L n (.channel c₀) ∧ ChannelMove d.toHashes n tx c₀ c) ∨
      OpenedBy d.toHashes tx c := by
  rcases t.record_origin h hrecord with ⟨hsame, hleft⟩ |
    ⟨i, _, s, out, hspent, hheld, hbefore, object, update, step⟩ | ⟨order, out, creation⟩
  · exact .inl ⟨c, hsame, .stays (orderFor_of_unspent hleft)⟩
  · cases step with
    | channel reads performs =>
      exact .inl ⟨_, hbefore,
        .moves (t.orderFor_of_spent h hspent hheld reads.redeemer) reads performs⟩
  · exact .inr (openedBy_of_creation h creation)

/-- What holds of a channel when it is created and is kept by every move holds of a channel that
was created in the run. -/
theorem Run.channel_history {motive : History → ChannelDatum → Prop}
    (t : Threads d.toHashes start host hd)
    (hlater : ∀ u ∈ start.utxos, ¬ 0 < amount (d.policy .channel) n u)
    (hcreated : ∀ {past : History} {L : Ledger} {tx : Transaction} {c : ChannelDatum},
      d.Accepted L tx → OpenedBy d.toHashes tx c → motive ((L, tx) :: past) c)
    (hstep : ∀ {past : History} {L : Ledger} {tx : Transaction} {c c' : ChannelDatum},
      d.Accepted L tx → d.Record .channel L n (.channel c) → ChannelMove d.toHashes n tx c c' →
      motive past c → motive ((L, tx) :: past) c')
    (hrun : Run d start past L) (hrecord : d.Record .channel L n (.channel c)) :
    motive past c := by
  induction hrun generalizing c with
  | start =>
    obtain ⟨u, hu, hheld, -⟩ := hrecord
    exact absurd hheld (hlater u hu)
  | step before h notFinal ih =>
    obtain ⟨host, hd, t⟩ := before.threads t
    rcases t.channel_origin h hrecord with ⟨c₀, hbefore, hmove⟩ | hopened
    · exact hstep h hbefore hmove (ih hbefore)
    · exact hcreated h hopened

/-- What holds of a channel's record at the start of a run and is kept by every move holds at its
end. -/
theorem Run.channel_induction {motive : History → Ledger → ChannelDatum → Prop}
    (t : Threads d.toHashes start host hd) (hrecord : d.Record .channel start n (.channel c))
    (hstart : motive [] start c)
    (hstep : ∀ {past : History} {L : Ledger} {tx : Transaction} {c c' : ChannelDatum}
      (h : d.Accepted L tx), (∃ host hd, Threads d.toHashes L host hd) →
      d.Record .channel L n (.channel c) → ChannelMove d.toHashes n tx c c' → motive past L c →
      motive ((L, tx) :: past) (L.apply tx h) c')
    (hrun : Run d start past L) :
    ∃ c, d.Record .channel L n (.channel c) ∧ motive past L c := by
  induction hrun with
  | start => exact ⟨c, hrecord, hstart⟩
  | step before h notFinal ih =>
    obtain ⟨c, hrecord, hmotive⟩ := ih
    obtain ⟨host, hd, t⟩ := before.threads t
    obtain ⟨c', hmove, hafter⟩ := t.channel_step h hrecord
    exact ⟨c', hafter, hstep h ⟨host, hd, t⟩ hrecord hmove hmotive⟩

/-! ## The connection and the client -/

omit [Builtins] in
/-- Where the proofs for a channel come from: a connection, its client, and the part of the
counterparty's store that is meant for it. -/
structure Route where
  connection_id : Bytes
  connection : AssetName
  client_id : Bytes
  client : AssetName
  prefixKey : MerklePrefix

/-- The channel with this token runs over the route. -/
structure Route.Serves (r : Route) (d : Hashes) (L : Ledger) (n : AssetName) : Prop where
  connection_token : expected_connection_token n d.mint_connection r.connection_id =
    some { policy_id := d.mint_connection, name := r.connection }
  client_token : expected_client_token n d.mint_client r.client_id =
    some { policy_id := d.mint_client, name := r.client }
  known : ∃ connection : ConnectionDatum,
    d.Record .connection L r.connection (.connection connection) ∧
      connection.state.client_id = r.client_id ∧
      connection.state.counterparty.prefixKey = r.prefixKey

theorem Route.Serves.step {r : Route} (hserves : r.Serves d.toHashes L n)
    (t : Threads d.toHashes L host hd) (h : d.Accepted L tx) :
    r.Serves d.toHashes (L.apply tx h) n := by
  refine ⟨hserves.connection_token, hserves.client_token, ?_⟩
  obtain ⟨connection, hrecord, hclient, hstart⟩ := hserves.known
  rcases t.record_step h hrecord with ⟨-, hafter⟩ | ⟨i, -, -, new, hstep, hafter⟩
  · exact ⟨connection, hafter, hclient, hstart⟩
  · cases hstep with
    | connection hstep =>
      exact ⟨_, hafter, hstep.client_id.trans hclient, hstep.prefixKey.trans hstart⟩

omit [Builtins] in
theorem find_connection_with_remaining_inputs_mem {inputs rest : List Input} {token : AuthToken}
    {policy : PolicyId} {before precedes : Bool} {input : Input}
    (h : find_connection_with_remaining_inputs inputs token policy before =
      some (input, rest, precedes)) :
    input ∈ inputs ∧ auth.contain_auth_token input.output token = true ∧
      ∀ i ∈ rest, i ∈ inputs := by
  induction inputs generalizing before with
  | nil => simp [find_connection_with_remaining_inputs] at h
  | cons i inputs ih =>
    unfold find_connection_with_remaining_inputs at h
    split at h
    · rename_i hheld
      simp only [Option.some.injEq, Prod.mk.injEq] at h
      obtain ⟨rfl, rfl, -⟩ := h
      exact ⟨List.mem_cons_self, hheld, fun j hj => List.mem_cons_of_mem _ hj⟩
    · obtain ⟨hmem, hheld, hrest⟩ := ih h
      exact ⟨List.mem_cons_of_mem _ hmem, hheld, fun j hj => List.mem_cons_of_mem _ (hrest j hj)⟩

/-- The connection and the client that are referred to hold the tokens that are expected. -/
theorem validate_referred_spec {inputs : List Input} {name : Bytes}
    {client_policy connection_policy : PolicyId} {connection_id : Bytes}
    {connection : ConnectionDatum} {client : ClientDatum}
    (h : validate_referred_connection_and_client inputs name client_policy connection_policy
      connection_id = some (connection, client)) :
    ∃ connection_token client_token,
      expected_connection_token name connection_policy connection_id = some connection_token ∧
      expected_client_token name client_policy connection.state.client_id = some client_token ∧
      (∃ i ∈ inputs, auth.contain_auth_token i.output connection_token = true ∧
        i.output.datum = .InlineDatum (.connection connection)) ∧
      ∃ i ∈ inputs, auth.contain_auth_token i.output client_token = true ∧
        i.output.datum = .InlineDatum (.client client) := by
  simp only [validate_referred_connection_and_client, bind_eq_some, get_inline_datum_eq_some,
    Data.asConnection_eq_some, Data.asClient_eq_some, pure_eq_some] at h
  obtain ⟨connection_token, hconnection, ⟨input, rest, precedes⟩, hfound, _, hdatum, connection',
    rfl, client_token, hclient, client_input, hsearch, _, hclient_datum, client', rfl, heq⟩ := h
  simp only [Prod.mk.injEq] at heq
  obtain ⟨rfl, rfl⟩ := heq
  obtain ⟨hmem, hheld, hrest⟩ := find_connection_with_remaining_inputs_mem hfound
  have hclient_held := List.find?_some hsearch
  have hclient_mem := List.mem_of_find?_eq_some hsearch
  refine ⟨connection_token, client_token, hconnection, hclient, ⟨input, hmem, hheld, hdatum⟩,
    client_input, ?_, hclient_held, hclient_datum⟩
  split at hclient_mem
  · exact hclient_mem
  · exact hrest _ hclient_mem

/-- What holds a token among the inputs a transaction refers to is the object's record. -/
theorem Threads.record_of_reference {k : Kind} {m : AssetName} {i : Input} {data : Data}
    (h : d.Accepted L tx) (hi : i ∈ tx.reference_inputs)
    (hheld : auth.contain_auth_token i.output { policy_id := d.policy k, name := m } = true)
    (hdatum : i.output.datum = .InlineDatum data) : d.Record k L m data := by
  refine ⟨i, h.references_live i hi, ?_, hdatum⟩
  rw [amount, auth.contain_auth_token_iff.mp hheld]
  exact Int.one_pos

/-- An operation on the channel reads the route's connection and its client. -/
theorem Route.Serves.reads {r : Route} (hserves : r.Serves d.toHashes L n)
    (t : Threads d.toHashes L host hd) (h : d.Accepted L tx) {op : Operation} {input : Input}
    {connection_id : Bytes} {connection : ConnectionDatum} {client : ClientDatum}
    (reads : Reads d.policies op.datum.token tx op input connection_id connection client)
    (hname : op.datum.token.name = n) (hhops : op.datum.state.channel.connection_hops =
      [r.connection_id]) :
    op.connection.counterparty.prefixKey = r.prefixKey ∧ op.client = client.state ∧
      d.Record .client L r.client (.client client) := by
  have hreferred : validate_referred_connection_and_client tx.reference_inputs op.datum.token.name
      d.mint_client d.mint_connection connection_id = some (connection, client) := reads.referred
  have hid := reads.hops
  rw [hhops] at hid
  obtain rfl : connection_id = r.connection_id := by simpa using hid.symm
  rw [hname] at hreferred
  obtain ⟨connection_token, client_token, hconnection, hclient, ⟨i, hi, hheld, hdatum⟩, j, hj,
    hheld', hdatum'⟩ := validate_referred_spec hreferred
  have hconnection' := hserves.connection_token
  rw [hconnection] at hconnection'
  cases hconnection'
  obtain ⟨known, hknown, hclient_id, hstart⟩ := hserves.known
  have hrecord : d.Record .connection L r.connection (.connection connection) :=
    Threads.record_of_reference h hi hheld hdatum
  have hsame := t.record_unique hrecord hknown
  injection hsame with hsame
  subst hsame
  have hclient' := hserves.client_token
  rw [← hclient_id] at hclient'
  rw [hclient] at hclient'
  cases hclient'
  exact ⟨by rw [reads.connection_eq]; exact hstart, reads.client_eq,
    Threads.record_of_reference h hj hheld' hdatum'⟩

/-! ## Proofs -/

/-- The store of the counterparty at each of its heights. -/
abbrev Store := Height → Bytes → Option Bytes

/-- The proofs that a transaction brings for the client under the prefix are sound: what they prove
against its roots is so in the store. -/
structure Tracks (d : Hashes) (store : Store) (prefixKey : MerklePrefix)
    (client : ClientDatumState) (tx : Transaction) : Prop where
  present : ∀ {connection : ConnectionEnd} {proof_height : Height} {proof : MerkleProof}
    {key value : Bytes} {params : VerifyMembershipParams} {time now : Int},
    connection.counterparty.prefixKey = prefixKey →
    membershipAt connection client proof_height proof key value = some params →
    verifyProofRedeemer tx.redeemers d.verify_proof = some (.VerifyMembership params) →
    client_state.verify_membership params time now = some true → store proof_height key = some value
  absent : ∀ {connection : ConnectionEnd} {proof_height : Height} {proof : MerkleProof}
    {key : Bytes} {params : VerifyNonMembershipParams} {time now : Int},
    connection.counterparty.prefixKey = prefixKey →
    nonMembershipAt connection client proof_height proof key = some params →
    verifyProofRedeemer tx.redeemers d.verify_proof = some (.VerifyNonMembership params) →
    client_state.verify_non_membership params time now = some true → store proof_height key = none

/-- The proof script has run with the redeemer that a transaction has for it. -/
theorem verify_proof_runs (h : d.Accepted L tx) {redeemer : VerifyProofRedeemer}
    (hredeemer : verifyProofRedeemer tx.redeemers d.verify_proof = some redeemer) :
    verify_proof.mint redeemer d.verify_proof tx = some true := by
  simp only [verifyProofRedeemer, bind_eq_some, Data.asVerifyProof_eq_some] at hredeemer
  obtain ⟨_, hfirst, rfl⟩ := hredeemer
  obtain ⟨name, hname⟩ := h.mint_needed hfirst
  have hmem : (d.verify_proof, Hashes.noSpend, fun redeemer policy tx => do
      verify_proof.mint (← Data.asVerifyProof redeemer) policy tx) ∈ d.table := by
    simp [Hashes.table]
  obtain ⟨given, hgiven, hrun⟩ := h.mint_runs hname (d.scripts_spec hmem).2
  rw [hfirst] at hgiven
  cases hgiven
  simpa [Data.asVerifyProof] using hrun

theorem Tracks.present_of_proved {store : Store} {r : Route} {connection : ConnectionEnd}
    {client : ClientDatumState} {proof_height : Height} {proof : MerkleProof} {key value : Bytes}
    (htracks : Tracks d.toHashes store r.prefixKey client tx) (h : d.Accepted L tx)
    (hstart : connection.counterparty.prefixKey = r.prefixKey)
    (hproved : provesMembership tx.redeemers d.verify_proof connection client proof_height proof
      key value = some true) : store proof_height key = some value := by
  simp only [provesMembership, bind_eq_some, pure_eq_some, beq_iff_eq] at hproved
  obtain ⟨redeemer, hredeemer, params, hparams, rfl⟩ := hproved
  have hrun := verify_proof_runs h hredeemer
  simp only [verify_proof.mint, bind_eq_some] at hrun
  obtain ⟨_, -, _, -, hverified⟩ := hrun
  exact htracks.present hstart hparams hredeemer hverified

theorem Tracks.absent_of_proved {store : Store} {r : Route} {connection : ConnectionEnd}
    {client : ClientDatumState} {proof_height : Height} {proof : MerkleProof} {key : Bytes}
    (htracks : Tracks d.toHashes store r.prefixKey client tx) (h : d.Accepted L tx)
    (hstart : connection.counterparty.prefixKey = r.prefixKey)
    (hproved : provesNonMembership tx.redeemers d.verify_proof connection client proof_height
      proof key = some true) : store proof_height key = none := by
  simp only [provesNonMembership, bind_eq_some, pure_eq_some, beq_iff_eq] at hproved
  obtain ⟨redeemer, hredeemer, params, hparams, rfl⟩ := hproved
  have hrun := verify_proof_runs h hredeemer
  simp only [verify_proof.mint, bind_eq_some] at hrun
  obtain ⟨_, -, _, -, hverified⟩ := hrun
  exact htracks.absent hstart hparams hredeemer hverified

end Moves

/-! ## A bridge that is running -/

section Checks

variable [Builtins]

/-- What holds the token is the object with this number. -/
def Hashes.isObject (d : Hashes) (k : Kind) (u : Input) (n : AssetName) (sequence : Nat) : Bool :=
  match u.output.datum with
  | .InlineDatum data =>
    u.output.address.payment_credential == .Script (d.script k) &&
      k.tokenIn data == some { policy_id := d.policy k, name := n } &&
      d.token k sequence == some { policy_id := d.policy k, name := n }
  | _ => false

/-- All tokens of a kind that stand in the values of a ledger are those of its objects. -/
def Hashes.threaded (d : Hashes) (L : Ledger) (hs : HostState) (k : Kind) : Bool :=
  L.utxos.all fun u => u.output.value.all fun e => e.1 != d.policy k ||
    (L.supplyOf (d.policy k) e.2.1 ≤ 1 &&
      (List.range (k.next hs).toNat).any fun sequence => d.isObject k u e.2.1 sequence)

omit [Builtins] in
theorem listed_of_held {u : Input} {p : PolicyId} {n : AssetName} (h : 0 < amount p n u) :
    ∃ e ∈ u.output.value, e.1 = p ∧ e.2.1 = n := by
  by_contra hnone
  have hzero : assets.quantity_of u.output.value p n = 0 :=
    assets.quantity_of_eq_zero fun e he hp hn => hnone ⟨e, he, hp, hn⟩
  rw [amount, hzero] at h
  exact absurd h (Int.lt_irrefl 0)

/-- A ledger in which all listed tokens are those of objects has no others. -/
theorem threaded_spec {d : Hashes} {L : Ledger} {hs : HostState} {k : Kind}
    (h : d.threaded L hs k = true) {u : Input} (hu : u ∈ L.utxos) {n : AssetName}
    (hheld : 0 < amount (d.policy k) n u) :
    (∃ data s, Object d k hs u n data s) ∧ L.supplyOf (d.policy k) n ≤ 1 := by
  obtain ⟨e, he, hp, rfl⟩ := listed_of_held hheld
  simp only [Hashes.threaded, List.all_eq_true, Bool.or_eq_true, bne_iff_ne, Bool.and_eq_true,
    decide_eq_true_eq, List.any_eq_true, List.mem_range] at h
  obtain hne | ⟨hone, s, hs, hobject⟩ := h u hu e he
  · exact absurd hp hne
  · refine ⟨?_, hone⟩
    unfold Hashes.isObject at hobject
    split at hobject
    · rename_i data hdatum
      simp only [Bool.and_eq_true, beq_iff_eq] at hobject
      exact ⟨data, s, hobject.1.1, hdatum, hobject.1.2, hobject.2, by omega, by omega⟩
    · cases hobject

theorem threaded_unique {d : Hashes} {L : Ledger} {hs : HostState} {k : Kind}
    (h : d.threaded L hs k = true) (n : AssetName) : L.supplyOf (d.policy k) n ≤ 1 := by
  by_contra hmore
  have hsome : 0 < L.supplyOf (d.policy k) n := by omega
  obtain ⟨u, hu, hheld⟩ := Ledger.exists_holder hsome
  exact hmore (threaded_spec h hu hheld).2

end Checks

section Sample

/-- SHA-256 as it is, and the digests that the names of the tokens are made of. -/
abbrev runningBuiltins : Builtins where
  sha2_256 := sha256.digest
  sha3_256 m :=
    if m = List.replicate 28 1 ++ utf8 "ibc_host_state" then
      bigEndian 32 0x00a534446f3cc32f5e29f8397167a024e0f402a2e1f864ef1abc2c368f2c0ef8
    else if m = utf8 "ibc_client" then
      bigEndian 32 0xf2c9db641048de13d87c1be4025fb6a56bc7be4ee967e3d4b129edde8dd6f60e
    else if m = utf8 "connection" then
      bigEndian 32 0x19dd9b301cb36e05ed9681e38f341485294d0fb8ba446e582211fb6a4726be08
    else if m = utf8 "channel" then
      bigEndian 32 0x239b722046c199b163647136366f31397fecf6e04ab9305e5e19411c64cd5051
    else sha256.digest m
  blake2b_224 := sha256.digest
  blake2b_256 m :=
    if m = utf8 "cardano-ibc/port-token/v1" ++ [0] ++ utf8 "transfer" then
      bigEndian 32 0x04c1bb73a4a1a77a59b16e461d6ea244bac88d36050557ba026d36f46dd0f873
    else sha256.digest m
  verify_ed25519_signature _ _ _ := false
  sha2_256_length := sha256.length_digest
  sha2_256_empty := sha256.digest_nil

local instance movesBuiltins : Builtins := runningBuiltins

/-- The name of an object's token, from the digest of its kind and its sequence number. -/
def runningName (kind : Nat) (sequence : String) : AssetName :=
  bigEndian 20 0x00a534446f3cc32f5e29f8397167a024e0f402a2 ++ bigEndian 4 kind ++ utf8 sequence

def runningClientToken : AuthToken :=
  { policy_id := sampleBridge.policy .client, name := runningName 0xf2c9db64 "0" }

def runningConnectionToken : AuthToken :=
  { policy_id := sampleBridge.policy .connection, name := runningName 0x19dd9b30 "0" }

def runningChannelToken (sequence : String) : AuthToken :=
  { policy_id := sampleBridge.policy .channel, name := runningName 0x239b7220 sequence }

def runningHeight (n : Int) : Height := { revision_number := 1, revision_height := n }

def runningConsensus (root : Nat) : ConsensusState :=
  { timestamp := 1000000000
    next_validators_hash := List.replicate 32 4
    root := { hash := bigEndian 32 root } }

/-- The client knows three states of the counterparty's store. -/
def runningClient : ClientDatum :=
  { state :=
      { client_state := { firstClientState with latest_height := runningHeight 7 }
        consensus_states :=
          [(runningHeight 7, runningConsensus
              0xe319a3ee990836351179b2c45bd7163cf03a16f178a6a2ce4dd4ca4c9c581304),
            (runningHeight 6, runningConsensus
              0x3446749aab42fcfac839dfe53f2436bd6b3ca36aeb3f189442752aa216d82d3a),
            (runningHeight 5, runningConsensus
              0x2fef84b8821a995c04dce7442f81b8f5127f5aade556d5b78262830828367836)]
        processed_times := [(runningHeight 7, 1500000000), (runningHeight 6, 1500000000),
          (runningHeight 5, 1500000000)]
        processed_heights := [(runningHeight 7, 0), (runningHeight 6, 0), (runningHeight 5, 0)] }
    token := runningClientToken }

def runningConnection : ConnectionDatum :=
  { state :=
      { client_id := utf8 "07-tendermint-0"
        versions := [{ identifier := utf8 "1"
                       features := [utf8 "ORDER_ORDERED", utf8 "ORDER_UNORDERED"] }]
        state := .Open
        counterparty :=
          { client_id := utf8 "07-tendermint-4"
            connection_id := utf8 "connection-3"
            prefixKey := { key_prefix := utf8 "ibc" } }
        delay_period := 0 }
    token := runningConnectionToken }

/-- A channel nothing was sent over yet. -/
def runningChannel (sequence : String) (state : ChannelState) (channel_id : Bytes) :
    ChannelDatum :=
  { state :=
      { channel :=
          { state
            ordering := .Unordered
            counterparty := { port_id := utf8 "transfer", channel_id }
            connection_hops := [utf8 "connection-0"]
            version := utf8 "ics20-1" }
        next_sequence_send := 1
        next_sequence_recv := 1
        next_sequence_ack := 1
        packet_commitment := []
        packet_receipt := []
        packet_acknowledgement := []
        minimum_receive_proof_height := height.zero_height
        maximum_receive_proof_height := height.zero_height }
    port_id := utf8 "transfer"
    token := runningChannelToken sequence }

def runningPort : ModuleRegistration :=
  { module_script_hash := sampleHash 20
    port_token :=
      { policy_id := sampleBridge.mint_port
        name := bigEndian 32 0x04c1bb73a4a1a77a59b16e461d6ea244bac88d36050557ba026d36f46dd0f873 }
    module_token := { policy_id := sampleHash 21, name := utf8 "ibc_module" } }

/-- The host state after a client, a connection and some channels. -/
def runningHostDatum (version channels : Int) (root : Bytes) : HostStateDatum :=
  { sampleHostDatum with
    state :=
      { version
        ibc_state_root := root
        next_client_sequence := 1
        next_connection_sequence := 1
        next_channel_sequence := channels
        bound_port := [(utf8 "transfer", runningPort)]
        last_update_time := 0 } }

/-- The outputs of one transaction of the past. -/
def runningInput (index : Nat) (output : Output) : Input :=
  { output_reference := { transaction_id := List.replicate 32 91, output_index := index }, output }

/-- The output of an object with its token. -/
def runningObject (k : Kind) (token : AuthToken) (data : Data) : Output :=
  { address := atScript (sampleBridge.script k)
    value := [lovelace 2000000, (token.policy_id, token.name, 1)]
    datum := .InlineDatum data }

def runningChannelOutput (c : ChannelDatum) : Output := runningObject .channel c.token (.channel c)

def runningModule : Input :=
  runningInput 2
    { address := atScript runningPort.module_script_hash
      value := [lovelace 2000000, (runningPort.port_token.policy_id, runningPort.port_token.name, 1),
        (runningPort.module_token.policy_id, runningPort.module_token.name, 1)]
      datum := .InlineDatum (.other []) }

def runningClientInput : Input :=
  runningInput 3 (runningObject .client runningClientToken (.client runningClient))

def runningConnectionInput : Input :=
  runningInput 4
    (runningObject .connection runningConnectionToken (.connection runningConnection))

/-- The only channel so far. -/
def runningOpenChannel : ChannelDatum := runningChannel "0" .Open (utf8 "channel-7")

def runningChannelInput : Input := runningInput 5 (runningChannelOutput runningOpenChannel)

def runningHost : HostStateDatum :=
  runningHostDatum 4 1
    (bigEndian 32 0x2fa1f6f1c5ac899b92890576df9779ddd130ebcc0b8d80cae2f8142c79636ed2)

def runningHostInput : Input := runningInput 0 (sampleHostOutput runningHost)

/-- Nothing but the objects and what belongs to the bridge. -/
def runningLedger : Ledger where
  utxos := [runningHostInput, sampleWallet, runningModule, runningClientInput,
    runningConnectionInput, runningChannelInput]
  past := [List.replicate 32 90, List.replicate 32 91]
  nodup := by decide
  created := by decide
  nonneg := by decide

/-- The hashes beside a key that stands alone up to a height. -/
def siblingsFrom (bit_index : Nat) (hashes : List Nat) : Siblings :=
  List.replicate bit_index ibc_state_commitment.empty_hash ++ hashes.map (bigEndian 32)

/-- The time from which on and up to which the transactions of the sample may be taken. -/
def runningValidity : ValidityRange :=
  { lower_bound := { bound_type := .Finite 1500, is_inclusive := true }
    upper_bound := { bound_type := .Finite 1600, is_inclusive := true } }

/-- What is left of the wallet. -/
def runningChange (n : Int) : Output := { sampleWallet.output with value := [lovelace n] }

/-- The proof of a store that has this one entry. -/
def onlyEntryProof (key value : Bytes) (store : Nat) : MerkleProof :=
  { proofs :=
      [.Exist { key, value, leaf := { specLeaf with prefixBytes := [0, 2, 2] }, path := [] },
        .Exist { key := utf8 "ibc", value := bigEndian 32 store, leaf := specLeaf, path := [] }] }

/-- Where the proofs for the channel come from. -/
def runningRoute : Route :=
  { connection_id := utf8 "connection-0"
    connection := runningConnectionToken.name
    client_id := utf8 "07-tendermint-0"
    client := runningClientToken.name
    prefixKey := { key_prefix := utf8 "ibc" } }

theorem runningLedger_threaded (k : Kind) :
    sampleBridge.threaded runningLedger runningHost.state k = true := by
  cases k <;> decide +kernel

theorem runningLedger_threads :
    Threads sampleBridge.toHashes runningLedger runningHostInput runningHost where
  nonce_spent := by decide
  nonce_past := by decide
  host_live := by decide
  host_nft := by decide
  host_supply := by decide
  host_script := rfl
  host_datum := rfl
  counted k := by cases k <;> decide
  objects k u hu n hn := (threaded_spec (runningLedger_threaded k) hu hn).1
  unique k n := threaded_unique (runningLedger_threaded k) n

end Sample

end cardano_ibc
