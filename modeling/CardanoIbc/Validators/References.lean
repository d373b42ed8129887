-- The references of a channel (utils/validator_utils.ak): its connection and that connection's client
-- are looked for in one pass, and what is found is what a lookup of each would find.
import CardanoIbc.Validators.Lookup

namespace cardano_ibc.validator_utils

section Scan

/-- An output with a token of a policy has tokens under it. -/
theorem tokens_of_contain {output : Output} {token : AuthToken}
    (h : auth.contain_auth_token output token = true) :
    (assets.tokens output.value token.policy_id).isEmpty = false := by
  rw [auth.contain_auth_token_iff] at h
  have hmem : (token.name, (1 : Int)) ∈ assets.tokens output.value token.policy_id := by
    rw [assets.mem_tokens]
    exact ⟨one_ne_zero, h⟩
  rw [List.isEmpty_eq_false_iff]
  exact List.ne_nil_of_mem hmem

theorem find_authenticated_input_cons (input : Input) (inputs : List Input) (token : AuthToken) :
    find_authenticated_input (input :: inputs) token =
      if auth.contain_auth_token input.output token then some input
      else find_authenticated_input inputs token := by
  rw [find_authenticated_input, List.find?_cons]
  cases auth.contain_auth_token input.output token <;> rfl

/-- An input has tokens of the client's policy. -/
def mayBeClient (client_policy : PolicyId) (input : Input) : Bool :=
  !(assets.tokens input.output.value client_policy).isEmpty

/-- The scan stops at the first input with the connection's token, and has seen the client's policy
just if an input before it has tokens of it. -/
theorem find_connection_with_remaining_inputs_cases (inputs : List Input)
    (connection_token : AuthToken) (client_policy : PolicyId) (seen : Bool) :
    find_connection_with_remaining_inputs inputs connection_token client_policy seen = none ∧
        find_authenticated_input inputs connection_token = none ∨
      ∃ before input rest, inputs = before ++ input :: rest ∧
        find_authenticated_input inputs connection_token = some input ∧
        find_connection_with_remaining_inputs inputs connection_token client_policy seen =
          some (input, rest, seen || before.any (mayBeClient client_policy)) := by
  induction inputs generalizing seen with
  | nil => exact .inl ⟨rfl, rfl⟩
  | cons input inputs ih =>
    rw [find_connection_with_remaining_inputs, find_authenticated_input_cons]
    by_cases hfound : auth.contain_auth_token input.output connection_token = true
    · refine .inr ⟨[], input, inputs, rfl, if_pos hfound, ?_⟩
      rw [if_pos hfound, List.any_nil, Bool.or_false]
    · rw [if_neg hfound, if_neg hfound]
      rcases ih (seen || mayBeClient client_policy input) with
        hnone | ⟨before, found, rest, rfl, hfind, hscan⟩
      · exact .inl hnone
      · refine .inr ⟨input :: before, found, rest, rfl, hfind, ?_⟩
        rw [List.any_cons, ← Bool.or_assoc]
        exact hscan

/-- Inputs without tokens of a policy have no token of it. -/
theorem find_authenticated_input_skips {before rest : List Input} {token : AuthToken}
    (h : before.any (mayBeClient token.policy_id) = false) :
    find_authenticated_input (before ++ rest) token = find_authenticated_input rest token := by
  induction before with
  | nil => rfl
  | cons input before ih =>
    rw [List.any_cons, Bool.or_eq_false_iff] at h
    have hnot : ¬ auth.contain_auth_token input.output token = true := by
      intro hcontains
      have hnone := h.1
      rw [mayBeClient, tokens_of_contain hcontains] at hnone
      cases hnone
    rw [List.cons_append, find_authenticated_input_cons, if_neg hnot, ih h.2]

/-- Where nothing before the rest may be the client, it is looked for in the rest only, and found as
in the whole list. -/
theorem client_search {before rest : List Input} {input : Input} {token : AuthToken} :
    find_authenticated_input
        (if before.any (mayBeClient token.policy_id) || mayBeClient token.policy_id input then
          before ++ input :: rest else rest) token =
      find_authenticated_input (before ++ input :: rest) token := by
  split
  · rfl
  · rename_i hunseen
    rw [Bool.not_eq_true, Bool.or_eq_false_iff] at hunseen
    rw [List.append_cons]
    refine (find_authenticated_input_skips ?_).symm
    rw [List.any_append, hunseen.1, List.any_cons, hunseen.2]
    rfl

end Scan

variable [Builtins]

def validate_referred_connection (reference_inputs : List Input) (referrer_token_name : Bytes)
    (connection_minting_policy_id : PolicyId) (connection_id : Bytes) : Option ConnectionDatum := do
  let connection_token ← expected_connection_token referrer_token_name
    connection_minting_policy_id connection_id
  let connection_input ← find_authenticated_input reference_inputs connection_token
  (← get_inline_datum connection_input.output).asConnection

/-- The one pass finds what the two lookups find, and fails where one of them fails. -/
theorem one_pass_finds_connection_and_client (reference_inputs : List Input)
    (referrer_token_name : Bytes)
    (client_minting_policy_id connection_minting_policy_id : PolicyId) (connection_id : Bytes) :
    validate_referred_connection_and_client reference_inputs referrer_token_name
        client_minting_policy_id connection_minting_policy_id connection_id =
      (do
        let connection_datum ← validate_referred_connection reference_inputs referrer_token_name
          connection_minting_policy_id connection_id
        let client_datum ← validate_referred_client reference_inputs referrer_token_name
          client_minting_policy_id connection_datum.state.client_id
        return (connection_datum, client_datum)) := by
  unfold validate_referred_connection_and_client validate_referred_connection
  cases expected_connection_token referrer_token_name connection_minting_policy_id
    connection_id with
  | none => rfl
  | some connection_token =>
    simp only [Option.bind_eq_bind, Option.bind_some]
    rcases find_connection_with_remaining_inputs_cases reference_inputs connection_token
      client_minting_policy_id false with
      ⟨hscan, hfind⟩ | ⟨before, input, rest, hsplit, hfind, hscan⟩
    · rw [hscan, hfind]
      rfl
    · rw [hscan, hfind]
      simp only [Option.bind_some, Bool.false_or, Option.bind_assoc]
      refine Option.bind_congr fun datum _ => Option.bind_congr fun connection_datum _ => ?_
      simp only [validate_referred_client, Option.bind_eq_bind, Option.bind_assoc]
      refine Option.bind_congr fun client_token htoken => ?_
      simp only [expected_client_token, bind_eq_some, pure_eq_some] at htoken
      obtain ⟨name, -, rfl⟩ := htoken
      have hsearch := @client_search before rest input
        { policy_id := client_minting_policy_id, name }
      rw [← hsplit] at hsearch
      rw [← hsearch]
      rfl

end cardano_ibc.validator_utils
