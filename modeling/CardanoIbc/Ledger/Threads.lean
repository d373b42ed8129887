-- The host state and the objects as threads through the ledger: each is one output at its own
-- script under its own token, from its creation on, whatever transactions the ledger takes.
import CardanoIbc.Ledger.Objects
import CardanoIbc.Library.Sha256

namespace cardano_ibc

open validator_utils

section Threads

variable [Builtins]

/-! ## The invariant -/

/-- The output is the object of its kind with this number, and says so itself. -/
structure Object (d : Hashes) (k : Kind) (hs : HostState) (u : Input) (name : AssetName)
    (data : Data) (sequence : Int) : Prop where
  at_script : u.output.address.payment_credential = .Script (d.script k)
  datum : u.output.datum = .InlineDatum data
  names : k.tokenIn data = some { policy_id := d.policy k, name }
  numbered : d.token k sequence = some { policy_id := d.policy k, name }
  nonneg : 0 ≤ sequence
  used : sequence < k.next hs

/-- The host state is one output at its script. Whatever has a token of a kind of object is an
object of that kind, and no token is there twice. -/
structure Threads (d : Hashes) (L : Ledger) (host : Input) (hd : HostStateDatum) : Prop where
  nonce_spent : ∀ u ∈ L.utxos, u.output_reference ≠ d.nonce
  nonce_past : d.nonce.transaction_id ∈ L.past
  host_live : host ∈ L.utxos
  host_nft : amount d.host_state_nft host_state_token_name host = 1
  host_supply : L.supplyOf d.host_state_nft host_state_token_name = 1
  host_script : host.output.address.payment_credential = .Script d.host_state_stt
  host_datum : host.output.datum = .InlineDatum (.hostState hd)
  counted : ∀ k, 0 ≤ Kind.next k hd.state
  objects : ∀ k, ∀ u ∈ L.utxos, ∀ n, 0 < amount (d.policy k) n u →
    ∃ data s, Object d k hd.state u n data s
  unique : ∀ k n, L.supplyOf (d.policy k) n ≤ 1

/-- The order that ends the bridge: it lets the host state's token go. -/
def Hashes.finalises (d : Hashes) (tx : Transaction) : Bool :=
  tx.inputs.any fun i => hasHostNft i.output d.host_state_nft &&
    hostRedeemer tx.redeemers i == some .FinalizeShutdown

theorem objectToken_policy {nft policy : PolicyId} {kind : Bytes} {s : Int} {token : AuthToken}
    (h : objectToken nft policy kind s = some token) : token.policy_id = policy := by
  simp only [objectToken, bind_eq_some, pure_eq_some] at h
  obtain ⟨name, -, rfl⟩ := h
  rfl

theorem objectToken_inj {nft policy : PolicyId} {kind : Bytes} {s s' : Int} {token : AuthToken}
    (h : objectToken nft policy kind s = some token)
    (h' : objectToken nft policy kind s' = some token) (hs : 0 ≤ s) (hs' : 0 ≤ s') : s = s' := by
  simp only [objectToken, bind_eq_some, pure_eq_some] at h h'
  obtain ⟨name, hname, rfl⟩ := h
  obtain ⟨name', hname', heq⟩ := h'
  obtain rfl : name' = name := congrArg AuthToken.name heq
  exact int_to_string_inj hs hs' (auth.generate_token_name_inj hname hname')

namespace Threads

variable {d : Deployment} {L : Ledger} {tx : Transaction} {host : Input} {hd : HostStateDatum}

/-- There is one host state. -/
theorem host_unique (t : Threads d.toHashes L host hd) {u : Input} (hu : u ∈ L.utxos)
    (hnft : hasHostNft u.output d.host_state_nft = true) : u = host := by
  have hone : amount d.host_state_nft host_state_token_name u = 1 := by
    rwa [hasHostNft, assets.has_nft_iff] at hnft
  have hhost := t.host_nft
  exact Ledger.holder_unique (by rw [t.host_supply]) hu t.host_live (by omega) (by omega)

/-- What holds a token holds one of it. -/
theorem held_one (t : Threads d.toHashes L host hd) {k : Kind} {u : Input} {n : AssetName}
    (hu : u ∈ L.utxos) (hn : 0 < amount (d.policy k) n u) : amount (d.policy k) n u = 1 := by
  have hle := Ledger.amount_le_supplyOf hu (d.policy k) n
  have hunique := t.unique k n
  omega

/-- The host state's token is never minted again. -/
theorem nft_not_minted (t : Threads d.toHashes L host hd) (h : d.Accepted L tx) (n : AssetName) :
    assets.quantity_of tx.mint d.host_state_nft n = 0 := by
  by_contra hn
  obtain ⟨i, hi, href⟩ := Deployment.nft_minted h hn
  exact t.nonce_spent i (h.inputs_live i hi) href

/-- An object is created under the host state there is. -/
theorem creation_host (t : Threads d.toHashes L host hd) (h : d.Accepted L tx) {k : Kind}
    {policy : PolicyId} {script : ScriptHash} {host' : Input} {hd' : HostStateDatum}
    {order : HostStateRedeemer} {token : AuthToken} {out : Output} {data : Data}
    (c : Creation k d.host_state_nft policy script tx host' hd' order token out data) :
    host' = host ∧ hd' = hd := by
  obtain ⟨hmem, hnft⟩ := find_host_state_input_spec c.host_found
  obtain rfl := t.host_unique (h.inputs_live _ hmem) hnft
  have hdatum := c.host_datum
  rw [t.host_datum] at hdatum
  injection hdatum with hdatum
  injection hdatum with hdatum
  exact ⟨rfl, hdatum.symm⟩

/-- Nobody has the token of the object to be created next. -/
theorem next_token_unused (t : Threads d.toHashes L host hd) {k : Kind} {token : AuthToken}
    (htoken : d.token k (k.next hd.state) = some token) :
    L.supplyOf (d.policy k) token.name = 0 := by
  have hpolicy : token = { policy_id := d.policy k, name := token.name } := by
    rw [← objectToken_policy htoken]
  have hnonneg := L.supplyOf_nonneg (d.policy k) token.name
  by_contra hne
  have hpositive : 0 < L.supplyOf (d.policy k) token.name := by omega
  obtain ⟨u, hu, hheld⟩ := Ledger.exists_holder hpositive
  obtain ⟨data, s, o⟩ := t.objects k u hu token.name hheld
  have hnumber := o.numbered
  rw [← hpolicy] at hnumber
  have := objectToken_inj hnumber htoken o.nonneg (t.counted k)
  have := o.used
  omega

/-- A token of an object is minted as one new token for the object created, or not at all. -/
theorem minted_cases (t : Threads d.toHashes L host hd) (h : d.Accepted L tx) (k : Kind)
    (n : AssetName) :
    assets.quantity_of tx.mint (d.policy k) n = 0 ∨
    (assets.quantity_of tx.mint (d.policy k) n = 1 ∧ L.supplyOf (d.policy k) n = 0 ∧
      ∃ order token out data, Creation k d.host_state_nft (d.policy k) (d.script k) tx host hd
        order token out data ∧ token = { policy_id := d.policy k, name := n }) := by
  by_cases hn : assets.quantity_of tx.mint (d.policy k) n = 0
  · exact .inl hn
  · obtain ⟨host', hd', order, token, out, data, c⟩ := Deployment.object_minted h hn
    obtain ⟨rfl, rfl⟩ := t.creation_host h c
    obtain ⟨hone, hother⟩ := auth.mints_exactly c.minted
    have hpolicy := objectToken_policy c.token_next
    rw [hpolicy] at hone hother
    obtain rfl : n = token.name := by
      by_contra hne
      exact hn (hother n hne)
    exact .inr ⟨hone, t.next_token_unused c.token_next, order, token, out, data, c, by
      rw [← hpolicy]⟩

/-- An object that is spent goes on, by an order to update its kind. -/
theorem spent_object (t : Threads d.toHashes L host hd) (h : d.Accepted L tx) {k : Kind}
    {n : AssetName} {i : Input} (hi : i ∈ tx.inputs) (hn : 0 < amount (d.policy k) n i) :
    ∃ old s out new, Object d.toHashes k hd.state i n old s ∧
      Update k d.host_state_nft tx i.output { policy_id := d.policy k, name := n } out new ∧
      ObjectStep d.toHashes tx i old new := by
  have hlive := h.inputs_live i hi
  obtain ⟨old, s, o⟩ := t.objects k i hlive n hn
  have hheld : auth.contain_auth_token i.output { policy_id := d.policy k, name := n } = true :=
    auth.contain_auth_token_iff.mpr (t.held_one hlive hn)
  obtain ⟨out, new, hupdate, hstep⟩ :=
    Deployment.object_spent h hi o.at_script o.datum o.names hheld
  exact ⟨old, s, out, new, o, hupdate, hstep⟩

end Threads

/-! ## What a transaction does to the threads -/

/-- Where an object that a transaction leaves comes from. -/
inductive Fate (d : Hashes) (tx : Transaction) (host : Input) (hd : HostStateDatum) (k : Kind)
    (n : AssetName) (u : Input) : Prop
  | created {order : HostStateRedeemer} {data : Data}
      (creation : Creation k d.host_state_nft (d.policy k) (d.script k) tx host hd order
        { policy_id := d.policy k, name := n } u.output data)
  | updated {i : Input} {old new : Data} {sequence : Int} (spent : i ∈ tx.inputs)
      (held : 0 < amount (d.policy k) n i) (object : Object d k hd.state i n old sequence)
      (update : Update k d.host_state_nft tx i.output { policy_id := d.policy k, name := n }
        u.output new)
      (step : ObjectStep d tx i old new)

/-- Where the host state is after a transaction. -/
inductive HostMove (d : Hashes) (tx : Transaction) (host : Input) (hd : HostStateDatum) :
    Input → HostStateDatum → Prop
  | stays (unspent : host ∉ tx.inputs) : HostMove d tx host hd host hd
  | moves {order : HostStateRedeemer} {host' : Input} {hd' : HostStateDatum}
      (spent : host ∈ tx.inputs) (ordered : hostRedeemer tx.redeemers host = some order)
      (created : host' ∈ tx.created)
      (only : (tx.outputs.filter fun o => hasHostNft o d.host_state_nft) = [host'.output])
      (datum : host'.output.datum = .InlineDatum (.hostState hd'))
      (address : host'.output.address = host.output.address)
      (transition : host_state_stt.transition d.hostParams tx hd hd' order = some true) :
    HostMove d tx host hd host' hd'

variable {d : Deployment} {L : Ledger} {tx : Transaction} {host host' : Input}
  {hd hd' : HostStateDatum}

theorem HostMove.next_le (m : HostMove d.toHashes tx host hd host' hd') (k : Kind) :
    k.next hd.state ≤ k.next hd'.state := by
  cases m with
  | stays => exact Int.le_refl _
  | moves _ _ _ _ _ _ htransition =>
    rw [host_state_stt.transition_next htransition k, host_state_stt.advance]
    split <;> omega

/-- The number of an object that is created is used from then on. -/
theorem HostMove.next_lt_of_creation (m : HostMove d.toHashes tx host hd host' hd') {k : Kind}
    {policy : PolicyId} {script : ScriptHash} {order : HostStateRedeemer} {token : AuthToken}
    {out : Output} {data : Data}
    (c : Creation k d.host_state_nft policy script tx host hd order token out data) :
    k.next hd.state < k.next hd'.state := by
  cases m with
  | stays hunspent => exact absurd (find_host_state_input_spec c.host_found).1 hunspent
  | moves _ hordered _ _ _ _ htransition =>
    rw [c.ordered] at hordered
    cases hordered
    rw [host_state_stt.transition_next htransition k, host_state_stt.advance, if_pos c.creates]
    omega

namespace Threads

theorem minted_le (t : Threads d.toHashes L host hd) (h : d.Accepted L tx) (k : Kind)
    (n : AssetName) : L.supplyOf (d.policy k) n + assets.quantity_of tx.mint (d.policy k) n ≤ 1 := by
  have hunique := t.unique k n
  rcases t.minted_cases h k n with hnone | ⟨hone, hnobody, -⟩ <;> omega

/-- Two outputs of a transaction with the same token are one output. -/
theorem output_unique (t : Threads d.toHashes L host hd) (h : d.Accepted L tx) {k : Kind}
    {n : AssetName} {o o' : Output} (ho : o ∈ tx.outputs) (ho' : o' ∈ tx.outputs)
    (hn : 0 < assets.quantity_of o.value (d.policy k) n)
    (hn' : 0 < assets.quantity_of o'.value (d.policy k) n) : o = o' := by
  have hproduced := h.produced_le_supplyOf (d.policy_ne_ada k) n
  have hminted := t.minted_le h k n
  refine supply.holder_unique
    (fun z hz => quantity_of_nonneg (h.outputs_nonneg z hz) (d.policy k) n) ?_ ho ho' hn hn'
  rw [Transaction.produced] at hproduced
  omega

theorem fate (t : Threads d.toHashes L host hd) (h : d.Accepted L tx) {k : Kind}
    {n : AssetName} {u : Input} (hu : u ∈ tx.created) (hn : 0 < amount (d.policy k) n u) :
    Fate d.toHashes tx host hd k n u := by
  have huout := (Transaction.output_of_created hu).1
  rcases t.minted_cases h k n with hnone | ⟨-, -, order, token, out, data, c, rfl⟩
  · -- nothing is minted, so what comes out went in
    have hbalance := h.balanced_asset (d.policy_ne_ada k) n
    have hcreated := Transaction.total_created tx (d.policy k) n
    have hle : amount (d.policy k) n u ≤ supply.total (amount (d.policy k) n) tx.created := by
      refine supply.le_total (fun z hz => ?_) hu
      exact quantity_of_nonneg
        (h.outputs_nonneg z.output (Transaction.output_of_created hz).1) (d.policy k) n
    have hconsumed : 0 < supply.total (amount (d.policy k) n) tx.inputs := by
      rw [← Transaction.consumed]
      omega
    obtain ⟨i, hi, hheld⟩ := supply.exists_holder hconsumed
    obtain ⟨old, s, out, new, ho, hupdate, hstep⟩ := t.spent_object h hi hheld
    obtain ⟨hout, -, hone⟩ := find_unique_continuation_output_spec hupdate.output
    have hpositive : 0 < assets.quantity_of out.value (d.policy k) n := by
      rw [hone]; exact Int.one_pos
    obtain rfl := t.output_unique h huout hout hn hpositive
    exact .updated hi hheld ho hupdate hstep
  · have hout : out ∈ tx.outputs := by
      have hmem : out ∈ find_script_outputs tx.outputs (d.script k) := by
        rw [c.output]
        exact List.mem_singleton_self out
      exact List.mem_of_mem_filter hmem
    have hone := ((auth.contains_only_one_iff (d.policy_ne_ada k)).mp c.only).1
    have hpositive : 0 < assets.quantity_of out.value (d.policy k) n := by
      rw [hone]; exact Int.one_pos
    obtain rfl := t.output_unique h huout hout hn hpositive
    exact .created c

/-- What a transaction leaves under a token is an object again. -/
theorem object_of_fate (t : Threads d.toHashes L host hd)
    (m : HostMove d.toHashes tx host hd host' hd') {k : Kind} {n : AssetName} {u : Input}
    (f : Fate d.toHashes tx host hd k n u) : ∃ data s, Object d.toHashes k hd'.state u n data s := by
  have hle := m.next_le k
  cases f with
  | created c =>
    have hlt := m.next_lt_of_creation c
    have haddress : u.output ∈ find_script_outputs tx.outputs (d.script k) := by
      rw [c.output]
      exact List.mem_singleton_self _
    simp only [find_script_outputs, List.mem_filter, beq_iff_eq] at haddress
    exact ⟨_, _, haddress.2, c.datum, c.names, c.token_next, t.counted k, hlt⟩
  | updated _ _ o hupdate _ =>
    obtain ⟨-, haddress, -⟩ := find_unique_continuation_output_spec hupdate.output
    have hused := o.used
    exact ⟨_, _, by rw [haddress, o.at_script], hupdate.datum, hupdate.names, o.numbered,
      o.nonneg, by omega⟩

/-- Unless the bridge is ended, the host state stays or moves on by its order. -/
theorem host_move (t : Threads d.toHashes L host hd) (h : d.Accepted L tx)
    (hfinal : d.finalises tx = false) : ∃ host' hd', HostMove d.toHashes tx host hd host' hd' := by
  by_cases hspent : host ∈ tx.inputs
  · obtain ⟨order, hredeemer, hrun⟩ := Deployment.host_runs h hspent t.host_script
    have hordered : hostRedeemer tx.redeemers host = some order := by
      simp [hostRedeemer, hredeemer, Data.asHostStateRedeemer]
    have hlast : order ≠ .FinalizeShutdown := by
      rintro rfl
      have hnft : hasHostNft host.output d.host_state_nft = true :=
        assets.has_nft_iff.mpr t.host_nft
      simp only [Hashes.finalises, List.any_eq_false, Bool.and_eq_true, beq_iff_eq,
        not_and] at hfinal
      exact hfinal host hspent hnft hordered
    obtain ⟨host_input, old, out, new, hfind, hold, hout, hnew, haddress, htransition⟩ :=
      host_state_stt.spend_spec hrun hlast
    obtain ⟨hin, hnft⟩ := find_host_state_input_spec hfind
    obtain rfl := t.host_unique (h.inputs_live _ hin) hnft
    rw [t.host_datum] at hold
    cases hold
    have hmem : out ∈ tx.outputs.filter fun o => hasHostNft o d.host_state_nft := by
      rw [show (tx.outputs.filter fun o => hasHostNft o d.host_state_nft) = [out] from hout]
      exact List.mem_singleton_self out
    obtain ⟨host', hcreated, rfl⟩ := Transaction.exists_created (List.mem_of_mem_filter hmem)
    exact ⟨host', new, .moves hspent hordered hcreated hout hnew haddress htransition⟩
  · exact ⟨host, hd, .stays hspent⟩

/-- Every transaction but the one that ends the bridge keeps the threads. -/
theorem step (t : Threads d.toHashes L host hd) (h : d.Accepted L tx)
    (m : HostMove d.toHashes tx host hd host' hd') :
    Threads d.toHashes (L.apply tx h) host' hd' where
  nonce_spent := by
    intro u hu href
    rcases Ledger.mem_apply.mp hu with ⟨hold, -⟩ | hnew
    · exact t.nonce_spent u hold href
    · have hid := (Transaction.output_of_created hnew).2
      rw [href] at hid
      exact h.fresh (hid ▸ t.nonce_past)
  nonce_past := List.mem_cons_of_mem _ t.nonce_past
  host_live := by
    cases m with
    | stays hunspent => exact Ledger.mem_apply.mpr (.inl ⟨t.host_live, hunspent⟩)
    | moves _ _ hcreated _ _ _ _ => exact Ledger.mem_apply.mpr (.inr hcreated)
  host_nft := by
    cases m with
    | stays _ => exact t.host_nft
    | moves _ _ _ honly _ _ _ =>
      have hmem : host'.output ∈ tx.outputs.filter fun o => hasHostNft o d.host_state_nft := by
        rw [honly]
        exact List.mem_singleton_self _
      exact assets.has_nft_iff.mp (List.mem_filter.mp hmem).2
  host_supply := by
    rw [h.supplyOf_apply d.nft_ne_ada, t.host_supply, t.nft_not_minted h]
    rfl
  host_script := by
    cases m with
    | stays _ => exact t.host_script
    | moves _ _ _ _ _ haddress _ => rw [haddress, t.host_script]
  host_datum := by
    cases m with
    | stays _ => exact t.host_datum
    | moves _ _ _ _ hdatum _ _ => exact hdatum
  counted := fun k => Int.le_trans (t.counted k) (m.next_le k)
  objects := by
    intro k u hu n hn
    rcases Ledger.mem_apply.mp hu with ⟨hold, -⟩ | hnew
    · obtain ⟨data, s, o⟩ := t.objects k u hold n hn
      exact ⟨data, s, o.at_script, o.datum, o.names, o.numbered, o.nonneg,
        Int.lt_of_lt_of_le o.used (m.next_le k)⟩
    · exact t.object_of_fate m (t.fate h hnew hn)
  unique := by
    intro k n
    rw [h.supplyOf_apply (d.policy_ne_ada k)]
    exact t.minted_le h k n

end Threads

/-! ## Runs -/

/-- The bridge as it starts: the host state's token sits at its script with a record that has
no objects yet, and the output it was minted from is spent. -/
structure Deployed (d : Hashes) (L : Ledger) (host : Input) (hd : HostStateDatum) : Prop where
  nonce_spent : ∀ u ∈ L.utxos, u.output_reference ≠ d.nonce
  nonce_past : d.nonce.transaction_id ∈ L.past
  host_live : host ∈ L.utxos
  host_nft : amount d.host_state_nft host_state_token_name host = 1
  host_supply : L.supplyOf d.host_state_nft host_state_token_name = 1
  host_script : host.output.address.payment_credential = .Script d.host_state_stt
  host_datum : host.output.datum = .InlineDatum (.hostState hd)
  initial : host_state.is_initialized_valid hd d.host_state_nft = true
  no_objects : ∀ k, ∀ u ∈ L.utxos, ∀ n, amount (d.policy k) n u = 0

theorem Deployed.threads (h : Deployed d.toHashes L host hd) : Threads d.toHashes L host hd where
  nonce_spent := h.nonce_spent
  nonce_past := h.nonce_past
  host_live := h.host_live
  host_nft := h.host_nft
  host_supply := h.host_supply
  host_script := h.host_script
  host_datum := h.host_datum
  counted := by
    have hinit := h.initial
    simp only [host_state.is_initialized_valid, Bool.and_eq_true, beq_iff_eq] at hinit
    intro k
    cases k <;> simp only [Kind.next] <;> omega
  objects := by
    intro k u hu n hn
    have := h.no_objects k u hu n
    omega
  unique := by
    intro k n
    by_contra hno
    obtain ⟨u, hu, hheld⟩ := Ledger.exists_holder (show 0 < L.supplyOf (d.policy k) n by omega)
    have := h.no_objects k u hu n
    omega

/-- The ledgers a bridge can get to before it is ended. -/
inductive Reachable (d : Deployment) : Ledger → Prop
  | deployed {L : Ledger} {host : Input} {hd : HostStateDatum}
      (h : Deployed d.toHashes L host hd) : Reachable d L
  | step {L : Ledger} {tx : Transaction} (before : Reachable d L) (h : d.Accepted L tx)
      (notFinal : d.finalises tx = false) : Reachable d (L.apply tx h)

/-- The threads hold along every run. -/
theorem Reachable.threads (h : Reachable d L) : ∃ host hd, Threads d.toHashes L host hd := by
  induction h with
  | deployed h => exact ⟨_, _, h.threads⟩
  | step _ h notFinal ih =>
    obtain ⟨host, hd, t⟩ := ih
    obtain ⟨host', hd', m⟩ := t.host_move h notFinal
    exact ⟨host', hd', t.step h m⟩

end Threads

/-! ## A bridge that was just deployed -/

section Sample

/-- SHA-256 as it is, and SHA3-256 on the two texts the name of a client's token is made of. -/
abbrev ledgerBuiltins : Builtins where
  sha2_256 := sha256.digest
  sha3_256 m :=
    if m = List.replicate 28 1 ++ utf8 "ibc_host_state" then
      bigEndian 32 0x00a534446f3cc32f5e29f8397167a024e0f402a2e1f864ef1abc2c368f2c0ef8
    else if m = utf8 "ibc_client" then
      bigEndian 32 0xf2c9db641048de13d87c1be4025fb6a56bc7be4ee967e3d4b129edde8dd6f60e
    else sha256.digest m
  blake2b_224 := sha256.digest
  blake2b_256 := sha256.digest
  verify_ed25519_signature _ _ _ := false
  sha2_256_length := sha256.length_digest
  sha2_256_empty := sha256.digest_nil

def sampleHash (n : UInt8) : Bytes := List.replicate 28 n

def sampleBridge : Deployment where
  nonce := { transaction_id := List.replicate 32 90, output_index := 0 }
  host_state_nft := sampleHash 1
  host_state_stt := sampleHash 2
  mint_client := sampleHash 3
  spend_client := sampleHash 4
  mint_connection := sampleHash 5
  spend_connection := sampleHash 6
  mint_channel := sampleHash 7
  spend_channel := sampleHash 8
  mint_port := sampleHash 9
  verify_proof := sampleHash 10
  chan_open_ack := sampleHash 11
  chan_open_confirm := sampleHash 12
  chan_close_init := sampleHash 13
  chan_close_confirm := sampleHash 14
  recv_packet := sampleHash 15
  send_packet := sampleHash 16
  timeout_packet := sampleHash 17
  acknowledge_packet := sampleHash 18
  prune_packet_history := sampleHash 19
  distinct := by decide
  named := by decide

def atScript (hash : ScriptHash) : Address :=
  { payment_credential := .Script hash, stake_credential := none }

def lovelace (n : Int) : PolicyId × AssetName × Int := (ada_policy_id, ada_asset_name, n)

def sampleHostDatum : HostStateDatum :=
  { state :=
      { version := 0
        ibc_state_root := host_state.empty_ibc_state_root
        next_client_sequence := 0
        next_connection_sequence := 0
        next_channel_sequence := 0
        bound_port := []
        last_update_time := 0 }
    nft_policy := sampleBridge.host_state_nft
    deployer := sampleHash 80
    shutdown := .Active }

/-- The output of the host state with some record. -/
def sampleHostOutput (hd : HostStateDatum) : Output :=
  { address := atScript sampleBridge.host_state_stt
    value := [lovelace 2000000, (sampleBridge.host_state_nft, host_state_token_name, 1)]
    datum := .InlineDatum (.hostState hd) }

def sampleHost : Input :=
  { output_reference := { transaction_id := List.replicate 32 91, output_index := 0 }
    output := sampleHostOutput sampleHostDatum }

/-- Somebody who can pay a fee. -/
def sampleWallet : Input :=
  { output_reference := { transaction_id := List.replicate 32 91, output_index := 1 }
    output :=
      { address := { payment_credential := .VerificationKey (sampleHash 81)
                     stake_credential := none }
        value := [lovelace 10000000]
        datum := .NoDatum } }

def sampleLedger : Ledger where
  utxos := [sampleHost, sampleWallet]
  past := [List.replicate 32 90, List.replicate 32 91]
  nodup := by decide
  created := by decide
  nonneg := by decide

theorem sampleLedger_deployed :
    Deployed sampleBridge.toHashes sampleLedger sampleHost sampleHostDatum where
  nonce_spent := by decide
  nonce_past := by decide
  host_live := by decide
  host_nft := by decide
  host_supply := by decide
  host_script := rfl
  host_datum := rfl
  initial := by decide
  no_objects := by
    intro k u hu n
    have hpolicies : ∀ e ∈ u.output.value, e.1 ≠ sampleBridge.policy k := by
      revert u
      cases k <;> decide
    exact assets.quantity_of_eq_zero fun e he hp => absurd hp (hpolicies e he)

end Sample

end cardano_ibc
