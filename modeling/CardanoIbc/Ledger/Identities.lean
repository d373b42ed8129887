-- The identities of clients, connections and channels: which tokens are ever minted for them,
-- and what the name of a token says about the deployment it is of.
import CardanoIbc.Ledger.Shutdown

namespace cardano_ibc

/-! ## Names -/

theorem int_to_string_ne_nil (n : Int) : int_to_string n ≠ [] := by
  unfold int_to_string decimal
  split
  · nofun
  · split
    · nofun
    · rename_i hne
      simp [Nat.digits_ne_nil_iff_ne_zero.mpr hne]

/-- The identifier that the name of an object's token stands for. -/
def Kind.identifier (k : Kind) (name : AssetName) : Option Bytes :=
  match k with
  | .client => host_state_stt.client_id_from_token_name name
  | .connection => host_state_stt.connection_id_from_token_name name
  | .channel => host_state_stt.channel_id_from_token_name name

/-- Tokens with different sequences in their names have different identifiers. -/
theorem Kind.identifier_inj {k : Kind} {n n' : AssetName} {sequence sequence' : Bytes}
    (h : auth.extract_token_sequence n = some sequence)
    (h' : auth.extract_token_sequence n' = some sequence')
    (hsame : k.identifier n = k.identifier n') : sequence = sequence' := by
  cases k <;>
    simpa [Kind.identifier, host_state_stt.client_id_from_token_name,
      host_state_stt.connection_id_from_token_name, host_state_stt.channel_id_from_token_name,
      format_connection_identifier, format_channel_identifier, h, h'] using hsame

section Names

variable [Builtins]

theorem objectToken_eq_some {nft policy : PolicyId} {kind : Bytes} {s : Int} {token : AuthToken} :
    objectToken nft policy kind s = some token ↔
      (int_to_string s).length ≤ 8 ∧
      auth.is_valid_token_name ((sha3_256 (nft ++ host_state_token_name)).take 20 ++
        (sha3_256 kind).take 4 ++ int_to_string s) = true ∧
      token = { policy_id := policy
                name := (sha3_256 (nft ++ host_state_token_name)).take 20 ++
                  (sha3_256 kind).take 4 ++ int_to_string s } := by
  simp only [objectToken, auth.generate_token_name, hostStateNft, bind_eq_some, expect_eq_some,
    pure_eq_some, decide_eq_true_eq]
  constructor
  · rintro ⟨_, ⟨_, hshort, _, hvalid, rfl⟩, rfl⟩
    exact ⟨hshort, hvalid, rfl⟩
  · rintro ⟨hshort, hvalid, rfl⟩
    exact ⟨_, ⟨(), hshort, (), hvalid, rfl⟩, rfl⟩

variable {d : Deployment} {k : Kind} {n : AssetName} {N : Int}

/-- The name of an object's token ends in its sequence. -/
theorem sequence_of_token (hlength : ∀ m, (sha3_256 m).length = 32)
    (h : d.token k N = some { policy_id := d.policy k, name := n }) :
    auth.extract_token_sequence n = some (int_to_string N) := by
  obtain ⟨-, hvalid, htoken⟩ := objectToken_eq_some.mp h
  rw [AuthToken.mk.injEq] at htoken
  rw [← htoken.2] at hvalid
  rw [auth.extract_token_sequence, if_pos hvalid, htoken.2]
  simp [List.drop_append, hlength]

/-- From the base of one object's token the names of every kind of object follow. -/
theorem derived_token (hlength : ∀ m, (sha3_256 m).length = 32)
    (h : d.token k N = some { policy_id := d.policy k, name := n }) (k' : Kind) (s : Int) :
    (auth.generate_token_name_from_another n k'.nameText (int_to_string s)).map
      (fun name => { policy_id := d.policy k', name }) = d.token k' s := by
  obtain ⟨-, hvalid, htoken⟩ := objectToken_eq_some.mp h
  rw [AuthToken.mk.injEq] at htoken
  rw [← htoken.2] at hvalid
  have hbase : n.take 20 = (sha3_256 (d.host_state_nft ++ host_state_token_name)).take 20 := by
    rw [htoken.2]
    simp [hlength]
  have hnew : auth.is_valid_token_name ((sha3_256 (d.host_state_nft ++ host_state_token_name)).take
      20 ++ (sha3_256 k'.nameText).take 4 ++ int_to_string s) = true := by
    have := List.length_pos_iff.mpr (int_to_string_ne_nil s)
    simp only [auth.is_valid_token_name, List.length_append, List.length_take, hlength,
      decide_eq_true_eq]
    omega
  refine Option.ext ?_
  intro token
  rw [Hashes.token, objectToken_eq_some, Option.map_eq_some_iff]
  simp only [auth.generate_token_name_from_another, auth.extract_token_base, bind_eq_some,
    expect_eq_some, pure_eq_some, decide_eq_true_eq, hbase]
  constructor
  · rintro ⟨_, ⟨_, hshort, _, ⟨_, -, rfl⟩, rfl⟩, rfl⟩
    exact ⟨hshort, hnew, rfl⟩
  · rintro ⟨hshort, -, rfl⟩
    exact ⟨_, ⟨(), hshort, _, ⟨(), hvalid, rfl⟩, rfl⟩, rfl⟩

end Names

/-! ## What is ever minted -/

/-- The tokens of a kind that were ever minted with a sequence in their name. -/
def Hashes.mintings (d : Hashes) (k : Kind) (sequence : Int) (past : History) :
    List (AssetName × Int) :=
  past.flatMap fun step => (assets.tokens step.2.mint (d.policy k)).filter fun token =>
    auth.extract_token_sequence token.1 == some (int_to_string sequence)

/-- The one output that has a token, at the script of its kind, names that token as its own. -/
def Hashes.HeldByItsObject (d : Hashes) (k : Kind) (L : Ledger) (n : AssetName) : Prop :=
  ∃ u ∈ L.utxos, ∃ data, u.output.address.payment_credential = .Script (d.script k) ∧
    u.output.datum = .InlineDatum data ∧
    k.tokenIn data = some { policy_id := d.policy k, name := n } ∧
    amount (d.policy k) n u = 1 ∧ ∀ v ∈ L.utxos, 0 < amount (d.policy k) n v → v = u

section Runs

variable [Builtins] {d : Deployment} {start L : Ledger} {tx : Transaction} {past : History}
  {host host' : Input} {hd hd' : HostStateDatum} {k : Kind} {n : AssetName}

namespace Threads

theorem heldByItsObject (t : Threads d.toHashes L host hd)
    (hn : 0 < L.supplyOf (d.policy k) n) : d.HeldByItsObject k L n := by
  obtain ⟨u, hu, hheld⟩ := Ledger.exists_holder hn
  obtain ⟨data, s, o⟩ := t.objects k u hu n hheld
  exact ⟨u, hu, data, o.at_script, o.datum, o.names, t.held_one hu hheld,
    fun v hv hpositive => t.holder_unique hv hu hpositive hheld⟩

/-- A transaction mints nothing of a kind, or the one token of the object that is next. -/
theorem mints_next (t : Threads d.toHashes L host hd) (h : d.Accepted L tx)
    (m : HostMove d.toHashes tx host hd host' hd') (k : Kind) :
    assets.tokens tx.mint (d.policy k) = [] ∨
    ∃ n, assets.tokens tx.mint (d.policy k) = [(n, 1)] ∧
      d.token k (k.next hd.state) = some { policy_id := d.policy k, name := n } ∧
      k.next hd.state < k.next hd'.state := by
  by_cases hnone : ∀ n, assets.quantity_of tx.mint (d.policy k) n = 0
  · exact .inl (assets.tokens_eq_nil.mpr hnone)
  · obtain ⟨n, hn⟩ := not_forall.mp hnone
    rcases t.minted_cases h k n with hzero | ⟨-, -, order, token, out, data, c, rfl⟩
    · exact absurd hzero hn
    · refine .inr ⟨n, ?_, c.token_next, m.next_lt_of_creation c⟩
      simpa [auth.mint_auth_token] using c.minted

end Threads

/-- What is known of the tokens of a kind after a run. -/
structure Minted (d : Hashes) (k : Kind) (past : History) (L : Ledger) (hd : HostStateDatum) :
    Prop where
  numbered : ∀ step ∈ past, ∀ token ∈ assets.tokens step.2.mint (d.policy k),
    ∃ N, 0 ≤ N ∧ token ∈ d.mintings k N past
  once : ∀ N, 0 ≤ N → d.mintings k N past = [] ∨
    ∃ n, d.mintings k N past = [(n, 1)] ∧ N < k.next hd.state ∧
      d.token k N = some { policy_id := d.policy k, name := n } ∧
      0 < L.supplyOf (d.policy k) n

theorem Minted.step (hlength : ∀ m, (sha3_256 m).length = 32)
    (hminted : Minted d.toHashes k past L hd) (t : Threads d.toHashes L host hd)
    (h : d.Accepted L tx) (m : HostMove d.toHashes tx host hd host' hd') :
    Minted d.toHashes k ((L, tx) :: past) (L.apply tx h) hd' := by
  have hle := m.next_le k
  -- a token that is there stays, for none is ever burned
  have hkept : ∀ n, 0 < L.supplyOf (d.policy k) n → 0 < (L.apply tx h).supplyOf (d.policy k) n := by
    intro n hn
    rw [h.supplyOf_apply (d.policy_ne_ada k)]
    rcases t.minted_cases h k n with hzero | ⟨hone, -⟩ <;> omega
  have hmintings : ∀ N, d.mintings k N ((L, tx) :: past) =
      (assets.tokens tx.mint (d.policy k)).filter (fun token =>
        auth.extract_token_sequence token.1 == some (int_to_string N)) ++
        d.mintings k N past := fun _ => rfl
  have hold : ∀ step ∈ past, ∀ token ∈ assets.tokens step.2.mint (d.policy k),
      ∃ N, 0 ≤ N ∧ token ∈ d.mintings k N ((L, tx) :: past) := by
    intro step hstep token htoken
    obtain ⟨N, hN, hmem⟩ := hminted.numbered step hstep token htoken
    exact ⟨N, hN, by rw [hmintings]; exact List.mem_append_right _ hmem⟩
  rcases t.mints_next h m k with hnone | ⟨n, hone, htoken, hlt⟩
  · refine ⟨?_, ?_⟩
    · intro step hstep token hmem
      rcases List.mem_cons.mp hstep with rfl | hstep
      · rw [hnone] at hmem
        cases hmem
      · exact hold step hstep token hmem
    · intro N hN
      rw [hmintings, hnone, List.filter_nil, List.nil_append]
      rcases hminted.once N hN with hempty | ⟨n, hn, hused, htoken, hsupply⟩
      · exact .inl hempty
      · exact .inr ⟨n, hn, by omega, htoken, hkept n hsupply⟩
  · have hnumber := sequence_of_token hlength htoken
    have hnew : ∀ N, 0 ≤ N → [(n, (1 : Int))].filter (fun token =>
        auth.extract_token_sequence token.1 == some (int_to_string N)) =
        if N = k.next hd.state then [(n, 1)] else [] := by
      intro N hN
      by_cases heq : N = k.next hd.state
      · simp [hnumber, heq]
      · have hne : int_to_string (k.next hd.state) ≠ int_to_string N := fun hc =>
          heq (int_to_string_inj (t.counted k) hN hc).symm
        simp [hnumber, heq, hne]
    refine ⟨?_, ?_⟩
    · intro step hstep token hmem
      rcases List.mem_cons.mp hstep with rfl | hstep
      · rw [hone] at hmem
        refine ⟨k.next hd.state, t.counted k, ?_⟩
        rw [hmintings, hone, hnew _ (t.counted k), if_pos rfl]
        exact List.mem_append_left _ hmem
      · exact hold step hstep token hmem
    · intro N hN
      rw [hmintings, hone, hnew N hN]
      by_cases heq : N = k.next hd.state
      · subst heq
        right
        rcases hminted.once (k.next hd.state) hN with hempty | ⟨_, -, hused, -⟩
        · refine ⟨n, by simp [hempty], hlt, htoken, ?_⟩
          have hunused : L.supplyOf (d.policy k) n = 0 := t.next_token_unused htoken
          have hquantity := (assets.tokens_eq_single hone).1
          rw [h.supplyOf_apply (d.policy_ne_ada k)]
          omega
        · omega
      · rw [if_neg heq, List.nil_append]
        rcases hminted.once N hN with hempty | ⟨n, hn, hused, htoken, hsupply⟩
        · exact .inl hempty
        · exact .inr ⟨n, hn, by omega, htoken, hkept n hsupply⟩

theorem Run.minted (hlength : ∀ m, (sha3_256 m).length = 32)
    (hstart : Deployed d.toHashes start host hd) (hrun : Run d start past L) (k : Kind) :
    ∃ host' hd', Threads d.toHashes L host' hd' ∧ Minted d.toHashes k past L hd' := by
  induction hrun with
  | start => exact ⟨host, hd, hstart.threads, nofun, fun _ _ => .inl rfl⟩
  | step _ h notFinal ih =>
    obtain ⟨host₁, hd₁, t, hminted⟩ := ih
    obtain ⟨host₂, hd₂, m⟩ := t.host_move h notFinal
    exact ⟨host₂, hd₂, t.step h m, hminted.step hlength t h m⟩

/-- Along every run that does not end the bridge, at most one token of a kind is ever minted
with a sequence, and it is with its object. The names and identifiers of two sequences differ,
and from the name of one object's token the names of all others follow. -/
theorem identities_are_unique (hlength : ∀ m, (sha3_256 m).length = 32)
    (hstart : Deployed d.toHashes start host hd) (hrun : Run d start past L) (k : Kind) :
    ∃ host' hd', d.OnlyHost L host' hd' ∧
      (∀ step ∈ past, ∀ token ∈ assets.tokens step.2.mint (d.policy k),
        ∃ N, 0 ≤ N ∧ token ∈ d.mintings k N past) ∧
      (∀ N, 0 ≤ N → d.mintings k N past = [] ∨ ∃ n, d.mintings k N past = [(n, 1)] ∧
        N < k.next hd'.state ∧ d.HeldByItsObject k L n) ∧
      (∀ N N' n n', 0 ≤ N → 0 ≤ N' → N ≠ N' → (n, 1) ∈ d.mintings k N past →
        (n', 1) ∈ d.mintings k N' past → n ≠ n' ∧ k.identifier n ≠ k.identifier n') ∧
      ∀ N n, 0 ≤ N → (n, 1) ∈ d.mintings k N past → ∀ k' s,
        (auth.generate_token_name_from_another n (Kind.nameText k') (int_to_string s)).map
          (fun name => { policy_id := d.policy k', name }) = d.token k' s := by
  obtain ⟨host', hd', t, hminted⟩ := hrun.minted hlength hstart k
  have hmem : ∀ N n, 0 ≤ N → (n, 1) ∈ d.mintings k N past →
      d.token k N = some { policy_id := d.policy k, name := n } := by
    intro N n hN hn
    rcases hminted.once N hN with hempty | ⟨n', hone, -, htoken, -⟩
    · rw [hempty] at hn
      cases hn
    · rw [hone, List.mem_singleton, Prod.mk.injEq] at hn
      rw [hn.1]
      exact htoken
  refine ⟨host', hd', t.onlyHost, hminted.numbered, ?_, ?_, ?_⟩
  · intro N hN
    rcases hminted.once N hN with hempty | ⟨n, hone, hused, -, hsupply⟩
    · exact .inl hempty
    · exact .inr ⟨n, hone, hused, t.heldByItsObject hsupply⟩
  · intro N N' n n' hN hN' hne hn hn'
    have hsequence := sequence_of_token hlength (hmem N n hN hn)
    have hsequence' := sequence_of_token hlength (hmem N' n' hN' hn')
    have hid : k.identifier n ≠ k.identifier n' := fun hsame =>
      hne (int_to_string_inj hN hN' (Kind.identifier_inj hsequence hsequence' hsame))
    exact ⟨fun hsame => hid (by rw [hsame]), hid⟩
  · intro N n hN hn k' s
    exact derived_token hlength (hmem N n hN hn) k' s

end Runs

/-! ## A second client 0 -/

section Sample

local instance identitiesBuiltins : Builtins := ledgerBuiltins

theorem sha3_256_length (m : Bytes) : (sha3_256 m).length = 32 := by
  show (ledgerBuiltins.sha3_256 m).length = 32
  unfold ledgerBuiltins
  simp only
  split_ifs
  · rfl
  · rfl
  · exact sha256.length_digest m

/-- The first client's token is the one token of client 0. -/
theorem the_first_client_is_unique :
    ∃ host hd, sampleBridge.OnlyHost clientLedger host hd ∧
      (sampleBridge.mintings .client 0 [(sampleLedger, firstClientTx)] = [] ∨
        ∃ n, sampleBridge.mintings .client 0 [(sampleLedger, firstClientTx)] = [(n, 1)] ∧
          0 < Kind.client.next hd.state ∧ sampleBridge.HeldByItsObject .client clientLedger n) := by
  obtain ⟨host, hd, honly, -, honce, -⟩ :=
    identities_are_unique sha3_256_length sampleLedger_deployed clientLedger_run .client
  exact ⟨host, hd, honly, honce 0 (Int.le_refl 0)⟩

def finalLedger : Ledger := shutLedger.apply finalTx finalTx_accepted

def forgottenHost : Input :=
  { output_reference := { transaction_id := finalTx.id, output_index := 0 }
    output := shutHostOutput (sampleHash 99) 1600000 forgottenHostDatum }

/-- The deployer shows the record of their own to the policy of clients. -/
def secondClientTx : Transaction :=
  { firstClientTx with
    inputs := [forgottenHost]
    outputs := [shutHostOutput (sampleHash 99) 800000 forgottenHostDatum,
      { address := atScript sampleBridge.spend_client
        value := [lovelace 600000, (firstClientToken.policy_id, firstClientToken.name, 1)]
        datum := .InlineDatum (.client firstClient) }]
    redeemers := [(.Spend forgottenHost.output_reference, .hostStateRedeemer firstClientOrder),
      (.Mint sampleBridge.mint_client, .mintClientRedeemer)]
    id := List.replicate 32 96 }

theorem secondClientTx_accepted : sampleBridge.Accepted finalLedger secondClientTx :=
  Ledger.accepts_iff.mp (by decide +kernel)

/-- The history of the bridge with its end and what came after it. -/
def endedHistory : History :=
  [(finalLedger, secondClientTx), (shutLedger, finalTx), (clientLedger, enterTx),
    (sampleLedger, firstClientTx)]

/-- Once a bridge is ended whoever has the host state's token can have client 0 minted again. -/
theorem a_client_is_minted_twice :
    Deployed sampleBridge.toHashes sampleLedger sampleHost sampleHostDatum ∧
      (∃ h : sampleBridge.Accepted sampleLedger firstClientTx,
        clientLedger = sampleLedger.apply firstClientTx h) ∧
      (∃ h : sampleBridge.Accepted clientLedger enterTx, shutLedger = clientLedger.apply enterTx h) ∧
      (∃ h : sampleBridge.Accepted shutLedger finalTx, finalLedger = shutLedger.apply finalTx h) ∧
      (∃ h : sampleBridge.Accepted finalLedger secondClientTx,
        (finalLedger.apply secondClientTx h).supplyOf sampleBridge.mint_client
          firstClientToken.name = 2) ∧
      sampleBridge.mintings .client 0 endedHistory =
        [(firstClientToken.name, 1), (firstClientToken.name, 1)] :=
  ⟨sampleLedger_deployed, ⟨firstClientTx_accepted, rfl⟩, ⟨enterTx_accepted, rfl⟩,
    ⟨finalTx_accepted, rfl⟩, ⟨secondClientTx_accepted, by decide +kernel⟩, by decide +kernel⟩

end Sample

end cardano_ibc
