-- Transactions as a script sees them, and what the scripts of the bridge look up in them:
-- cardano/transaction, the output checks of auth.ak and utils/validator_utils.ak.
import CardanoIbc.Ibc.Types

namespace cardano_ibc

abbrev ScriptHash := Bytes

inductive Credential where
  | VerificationKey (hash : Bytes)
  | Script (hash : ScriptHash)
deriving DecidableEq, Repr

structure Address where
  payment_credential : Credential
  stake_credential : Option Bytes
deriving DecidableEq, Repr

structure OutputReference where
  transaction_id : Bytes
  output_index : Nat
deriving DecidableEq, Repr

inductive Datum where
  | NoDatum
  | DatumHash (hash : Bytes)
  | InlineDatum (data : Data)
deriving DecidableEq, Repr

structure Output where
  address : Address
  value : Value
  datum : Datum
deriving DecidableEq, Repr

structure Input where
  output_reference : OutputReference
  output : Output
deriving DecidableEq, Repr

inductive ScriptPurpose where
  | Mint (policy : PolicyId)
  | Spend (reference : OutputReference)
deriving DecidableEq, Repr

inductive BoundType where
  | NegativeInfinity
  | Finite (time : Int)
  | PositiveInfinity
deriving DecidableEq, Repr

structure IntervalBound where
  bound_type : BoundType
  is_inclusive : Bool
deriving DecidableEq, Repr

structure ValidityRange where
  lower_bound : IntervalBound
  upper_bound : IntervalBound
deriving DecidableEq, Repr

abbrev Redeemers := List (ScriptPurpose × Data)

structure Transaction where
  inputs : List Input
  reference_inputs : List Input
  outputs : List Output
  fee : Int
  mint : Value
  validity_range : ValidityRange
  extra_signatories : List Bytes
  redeemers : Redeemers
  datums : List (Bytes × Data)
  id : Bytes
deriving DecidableEq, Repr

/-! ## Looking things up -/

def find_script_outputs (outputs : List Output) (script_hash : ScriptHash) : List Output :=
  outputs.filter fun output => output.address.payment_credential == .Script script_hash

def find_input (inputs : List Input) (reference : OutputReference) : Option Input :=
  inputs.find? fun input => input.output_reference == reference

/-- `expect [x] = xs`. -/
def exactlyOne {α : Type} : List α → Option α
  | [x] => some x
  | _ => none

@[simp] theorem exactlyOne_eq_some {α : Type} {xs : List α} {x : α} :
    exactlyOne xs = some x ↔ xs = [x] := by
  unfold exactlyOne
  split <;> simp_all

namespace auth

def contain_auth_token (output : Output) (token : AuthToken) : Bool :=
  assets.has_nft output.value token.policy_id token.name

def contains_only_auth_tokens (output : Output) (tokens : List AuthToken) : Bool :=
  assets.match_assets output.value (expected_value tokens)

@[simp] theorem contain_auth_token_iff {output : Output} {token : AuthToken} :
    contain_auth_token output token = true ↔
      assets.quantity_of output.value token.policy_id token.name = 1 := by
  simp [contain_auth_token]

/-- An output with one token only has one of it and nothing else but lovelace. -/
theorem contains_only_one_iff {output : Output} {token : AuthToken}
    (hp : token.policy_id ≠ ada_policy_id) :
    contains_only_auth_tokens output [token] = true ↔
      assets.quantity_of output.value token.policy_id token.name = 1 ∧
      ∀ p n, p ≠ ada_policy_id → (p, n) ≠ (token.policy_id, token.name) →
        assets.quantity_of output.value p n = 0 := by
  have hexpected : ∀ p n, assets.quantity_of (expected_value [token]) p n =
      if token.policy_id = p ∧ token.name = n then 1 else 0 := by
    intro p n
    simp only [expected_value, List.foldl_cons, List.foldl_nil, assets.quantity_of_merge,
      assets.quantity_of_from_asset]
    simp [assets.zero]
  simp only [contains_only_auth_tokens, assets.match_assets_iff, hexpected]
  constructor
  · intro h
    refine ⟨by simpa using h token.policy_id token.name hp, ?_⟩
    intro p n hpn hne
    have hno : ¬ (token.policy_id = p ∧ token.name = n) := by
      rintro ⟨rfl, rfl⟩
      exact hne rfl
    rw [h p n hpn, if_neg hno]
  · rintro ⟨hone, hrest⟩ p n hpn
    split
    · rename_i heq
      rw [← heq.1, ← heq.2, hone]
    · rename_i hno
      refine hrest p n hpn ?_
      rintro heq
      simp only [Prod.mk.injEq] at heq
      exact hno ⟨heq.1.symm, heq.2.symm⟩

end auth

namespace validator_utils

def get_inline_datum (output : Output) : Option Data :=
  match output.datum with
  | .InlineDatum data => some data
  | _ => none

@[simp] theorem get_inline_datum_eq_some {output : Output} {data : Data} :
    get_inline_datum output = some data ↔ output.datum = .InlineDatum data := by
  unfold get_inline_datum
  split <;> simp_all

def get_tx_valid_to (validity_range : ValidityRange) : Option Int :=
  match validity_range.upper_bound.bound_type with
  | .Finite valid_to => some valid_to
  | _ => none

def get_tx_valid_from (validity_range : ValidityRange) : Option Int :=
  if validity_range.lower_bound.is_inclusive then
    match validity_range.lower_bound.bound_type with
    | .Finite valid_from => some valid_from
    | _ => none
  else none

/-- `tokens(mint, policy) == { name: quantity }`. -/
def require_exact_marker_mint (mint : Value) (own_policy_id : PolicyId)
    (expected_asset_name : AssetName) (expected_quantity : Int) : Bool :=
  assets.tokens mint own_policy_id == [(expected_asset_name, expected_quantity)]

def find_authenticated_input (inputs : List Input) (token : AuthToken) : Option Input :=
  inputs.find? fun input => auth.contain_auth_token input.output token

/-- The one output at the spent output's address that has the token. -/
def find_unique_continuation_output (spent_output : Output) (outputs : List Output)
    (token : AuthToken) : Option Output := do
  expect (auth.contain_auth_token spent_output token)
  exactlyOne (outputs.filter fun output =>
    output.address == spent_output.address && auth.contain_auth_token output token)

theorem find_unique_continuation_output_spec {spent out : Output} {outputs : List Output}
    {token : AuthToken} (h : find_unique_continuation_output spent outputs token = some out) :
    out ∈ outputs ∧ out.address = spent.address ∧
      assets.quantity_of out.value token.policy_id token.name = 1 := by
  simp only [find_unique_continuation_output, bind_eq_some, exactlyOne_eq_some] at h
  obtain ⟨-, -, heq⟩ := h
  have hmem : out ∈ outputs.filter fun output =>
      output.address == spent.address && auth.contain_auth_token output token := by
    rw [heq]
    exact List.mem_singleton_self out
  simpa using hmem

end validator_utils

/-! ## The host state thread -/

def host_state_token_name : AssetName := utf8 "ibc_host_state"

def hasHostNft (output : Output) (nft_policy : PolicyId) : Bool :=
  assets.has_nft output.value nft_policy host_state_token_name

/-- `find_host_state_input`, which every script that needs it repeats. -/
def find_host_state_input (inputs : List Input) (nft_policy : PolicyId) : Option Input :=
  inputs.find? fun input => hasHostNft input.output nft_policy

theorem find_host_state_input_spec {inputs : List Input} {nft : PolicyId} {host : Input}
    (h : find_host_state_input inputs nft = some host) :
    host ∈ inputs ∧ hasHostNft host.output nft = true := by
  have hnft := List.find?_some h
  exact ⟨List.mem_of_find?_eq_some h, hnft⟩

/-- The order the host state is spent with. -/
def hostRedeemer (redeemers : Redeemers) (host_input : Input) : Option HostStateRedeemer := do
  (← get_first redeemers (.Spend host_input.output_reference)).asHostStateRedeemer

namespace validator_utils

inductive ExpectedHostStateRedeemer where
  | ExpectUpdateClient
  | ExpectUpdateConnection
  | ExpectUpdateChannel
  | ExpectHandlePacket
deriving DecidableEq, Repr

def host_state_redeemer_matches (redeemer : HostStateRedeemer)
    (expected : ExpectedHostStateRedeemer) : Bool :=
  match expected, redeemer with
  | .ExpectUpdateClient, .UpdateClient .. => true
  | .ExpectUpdateConnection, .UpdateConnection .. => true
  | .ExpectUpdateChannel, .UpdateChannel .. => true
  | .ExpectHandlePacket, .HandlePacket .. => true
  | _, _ => false

def require_host_state_thread (inputs : List Input) (outputs : List Output)
    (host_state_nft_policy_id : PolicyId) : Option (Input × Output) := do
  let host_input ← exactlyOne (inputs.filter fun input =>
    hasHostNft input.output host_state_nft_policy_id)
  let host_output ← exactlyOne (outputs.filter fun output =>
    hasHostNft output host_state_nft_policy_id)
  expect (host_output.address == host_input.output.address)
  let _ ← get_inline_datum host_input.output
  let _ ← get_inline_datum host_output
  return (host_input, host_output)

def require_host_state_redeemer (inputs : List Input) (outputs : List Output)
    (redeemers : Redeemers) (host_state_nft_policy_id : PolicyId)
    (expected : ExpectedHostStateRedeemer) : Option (Input × Output) := do
  let (host_input, host_output) ←
    require_host_state_thread inputs outputs host_state_nft_policy_id
  expect (host_state_redeemer_matches (← hostRedeemer redeemers host_input) expected)
  return (host_input, host_output)

/-- Whoever asks for the host state finds it among the inputs, spent with the order expected. -/
theorem require_host_state_redeemer_spec {inputs : List Input} {outputs : List Output}
    {redeemers : Redeemers} {nft : PolicyId} {expected : ExpectedHostStateRedeemer}
    {host_input : Input} {host_output : Output}
    (h : require_host_state_redeemer inputs outputs redeemers nft expected =
      some (host_input, host_output)) :
    host_input ∈ inputs ∧ hasHostNft host_input.output nft = true ∧
      ∃ r, hostRedeemer redeemers host_input = some r ∧
        host_state_redeemer_matches r expected = true := by
  simp only [require_host_state_redeemer, require_host_state_thread, bind_eq_some,
    exactlyOne_eq_some, expect_eq_some, pure_eq_some] at h
  obtain ⟨⟨hi, ho⟩, ⟨hi', hin, ho', -, -, -, -, -, -, -, heq⟩, r, hr, -, hmatch, heq'⟩ := h
  simp only [Prod.mk.injEq] at heq heq'
  obtain ⟨rfl, rfl⟩ := heq
  obtain ⟨rfl, rfl⟩ := heq'
  have hmem : hi' ∈ inputs.filter fun input => hasHostNft input.output nft := by
    rw [hin]
    exact List.mem_singleton_self hi'
  rw [List.mem_filter] at hmem
  exact ⟨hmem.1, hmem.2, r, hr, hmatch⟩

end validator_utils

end cardano_ibc
