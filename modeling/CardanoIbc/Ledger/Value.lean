-- What an output holds, read the way the scripts read it: cardano/assets and the
-- token checks of lib/ibc/auth.ak.
import CardanoIbc.Prelude
import Mathlib.Data.List.Dedup

namespace cardano_ibc

abbrev PolicyId := Bytes
abbrev AssetName := Bytes

/-- A value is a list of amounts. An asset that stands in it more than once has the sum. -/
abbrev Value := List (PolicyId × AssetName × Int)

def ada_policy_id : PolicyId := []
def ada_asset_name : AssetName := []

namespace assets

def zero : Value := []

def from_asset (policy : PolicyId) (name : AssetName) (quantity : Int) : Value :=
  [(policy, name, quantity)]

def merge (left right : Value) : Value := left ++ right

def quantity_of : Value → PolicyId → AssetName → Int
  | [], _, _ => 0
  | (p, n, q) :: rest, policy, name =>
    (if p = policy ∧ n = name then q else 0) + quantity_of rest policy name

def has_nft (v : Value) (policy : PolicyId) (name : AssetName) : Bool :=
  quantity_of v policy name == 1

/-- The names under a policy that the value has any of, each with its amount. -/
def tokens (v : Value) (policy : PolicyId) : List (AssetName × Int) :=
  (((v.filter fun e => e.1 == policy).map fun e => e.2.1).dedup.map
    fun name => (name, quantity_of v policy name)).filter fun t => t.2 != 0

/-- Two values are the same but for lovelace. -/
def match_assets (left right : Value) : Bool :=
  (left ++ right).all fun e =>
    e.1 == ada_policy_id || quantity_of left e.1 e.2.1 == quantity_of right e.1 e.2.1

def negate (v : Value) : Value := v.map fun e => (e.1, e.2.1, -e.2.2)

def lovelace_of (v : Value) : Int := quantity_of v ada_policy_id ada_asset_name

@[simp] theorem quantity_of_nil (p : PolicyId) (n : AssetName) : quantity_of [] p n = 0 := rfl

theorem quantity_of_append (v w : Value) (p : PolicyId) (n : AssetName) :
    quantity_of (v ++ w) p n = quantity_of v p n + quantity_of w p n := by
  induction v with
  | nil => simp
  | cons e v ih => simp only [List.cons_append, quantity_of, ih]; omega

theorem quantity_of_merge (v w : Value) (p : PolicyId) (n : AssetName) :
    quantity_of (merge v w) p n = quantity_of v p n + quantity_of w p n :=
  quantity_of_append v w p n

theorem quantity_of_from_asset (p p' : PolicyId) (n n' : AssetName) (q : Int) :
    quantity_of (from_asset p n q) p' n' = if p = p' ∧ n = n' then q else 0 := by
  simp [from_asset, quantity_of]

/-- A value has none of an asset that does not stand in it. -/
theorem quantity_of_eq_zero {v : Value} {p : PolicyId} {n : AssetName}
    (h : ∀ e ∈ v, e.1 = p → e.2.1 ≠ n) : quantity_of v p n = 0 := by
  induction v with
  | nil => rfl
  | cons e v ih =>
    have hrest := ih fun e' he' => h e' (List.mem_cons_of_mem e he')
    have hhead : ¬ (e.1 = p ∧ e.2.1 = n) := fun hc => h e List.mem_cons_self hc.1 hc.2
    simp only [quantity_of, hrest, if_neg hhead, Int.add_zero]

theorem exists_of_quantity_of_ne_zero {v : Value} {p : PolicyId} {n : AssetName}
    (h : quantity_of v p n ≠ 0) : ∃ e ∈ v, e.1 = p ∧ e.2.1 = n := by
  by_contra hno
  refine h (quantity_of_eq_zero ?_)
  intro e he hp hn
  exact hno ⟨e, he, hp, hn⟩

@[simp] theorem has_nft_iff {v : Value} {p : PolicyId} {n : AssetName} :
    has_nft v p n = true ↔ quantity_of v p n = 1 := by simp [has_nft]

theorem mem_tokens {v : Value} {p : PolicyId} {t : AssetName × Int} :
    t ∈ tokens v p ↔ t.2 ≠ 0 ∧ quantity_of v p t.1 = t.2 := by
  simp only [tokens, List.mem_filter, List.mem_map, List.mem_dedup, bne_iff_ne, ne_eq,
    beq_iff_eq]
  constructor
  · rintro ⟨⟨name, -, rfl⟩, hne⟩
    exact ⟨hne, rfl⟩
  · rintro ⟨hne, hq⟩
    obtain ⟨e, he, hp, hn⟩ := exists_of_quantity_of_ne_zero (hq ▸ hne)
    exact ⟨⟨t.1, ⟨e, ⟨he, hp⟩, hn⟩, by rw [hq]⟩, hne⟩

theorem tokens_eq_nil {v : Value} {p : PolicyId} :
    tokens v p = [] ↔ ∀ n, quantity_of v p n = 0 := by
  rw [List.eq_nil_iff_forall_not_mem]
  constructor
  · intro h n
    by_contra hn
    exact h (n, quantity_of v p n) (mem_tokens.mpr ⟨hn, rfl⟩)
  · intro h t ht
    obtain ⟨hne, hq⟩ := mem_tokens.mp ht
    exact hne (by rw [← hq, h])

/-- `tokens` is one entry exactly where the value has that amount and nothing else. -/
theorem tokens_eq_single {v : Value} {p : PolicyId} {name : AssetName} {q : Int}
    (h : tokens v p = [(name, q)]) :
    quantity_of v p name = q ∧ ∀ n, n ≠ name → quantity_of v p n = 0 := by
  constructor
  · exact (mem_tokens.mp (by rw [h]; exact List.mem_singleton_self _)).2
  · intro n hn
    by_contra hq
    have hmem : (n, quantity_of v p n) ∈ tokens v p := mem_tokens.mpr ⟨hq, rfl⟩
    rw [h, List.mem_singleton, Prod.mk.injEq] at hmem
    exact hn hmem.1

theorem match_assets_iff {v w : Value} :
    match_assets v w = true ↔
      ∀ p n, p ≠ ada_policy_id → quantity_of v p n = quantity_of w p n := by
  simp only [match_assets, List.all_eq_true, Bool.or_eq_true, beq_iff_eq]
  constructor
  · intro h p n hp
    by_cases hv : quantity_of v p n = 0
    · by_cases hw : quantity_of w p n = 0
      · rw [hv, hw]
      · obtain ⟨e, he, rfl, rfl⟩ := exists_of_quantity_of_ne_zero hw
        exact (h e (List.mem_append_right v he)).resolve_left hp
    · obtain ⟨e, he, rfl, rfl⟩ := exists_of_quantity_of_ne_zero hv
      exact (h e (List.mem_append_left w he)).resolve_left hp
  · intro h e _
    by_cases hp : e.1 = ada_policy_id
    · exact .inl hp
    · exact .inr (h e.1 e.2.1 hp)

end assets

/-! ## Auth tokens -/

structure AuthToken where
  policy_id : PolicyId
  name : AssetName
deriving DecidableEq, Repr

namespace auth

/-- The value `contains_only_auth_tokens` compares with: one of each token. -/
def expected_value (tokens : List AuthToken) : Value :=
  tokens.foldl (fun acc token =>
    assets.merge (assets.from_asset token.policy_id token.name 1) acc) assets.zero

def mint_auth_token (mint : Value) (token : AuthToken) : Bool :=
  assets.tokens mint token.policy_id == [(token.name, 1)]

def is_valid_token_name (token_name : Bytes) : Bool := token_name.length > 24

def extract_token_base (token_name : Bytes) : Option Bytes := do
  expect (is_valid_token_name token_name)
  return token_name.take 20

def extract_token_sequence (token_name : Bytes) : Option Bytes :=
  if is_valid_token_name token_name then some (token_name.drop 24) else none

section Names

variable [Builtins]

def generate_token_name (base_token : AuthToken) (prefixBytes sequence : Bytes) :
    Option Bytes := do
  expect (sequence.length ≤ 8)
  let base_token_part := (sha3_256 (base_token.policy_id ++ base_token.name)).take 20
  let prefix_part := (sha3_256 prefixBytes).take 4
  let full_name := base_token_part ++ prefix_part ++ sequence
  expect (is_valid_token_name full_name)
  return full_name

def generate_token_name_from_another (another_token_name prefixBytes sequence : Bytes) :
    Option Bytes := do
  expect (sequence.length ≤ 8)
  let base_token_part ← extract_token_base another_token_name
  let prefix_part := (sha3_256 prefixBytes).take 4
  return base_token_part ++ prefix_part ++ sequence

/-- Under one base token and one kind of object the name determines the sequence. -/
theorem generate_token_name_inj {base_token : AuthToken} {prefixBytes s s' name : Bytes}
    (h : generate_token_name base_token prefixBytes s = some name)
    (h' : generate_token_name base_token prefixBytes s' = some name) : s = s' := by
  simp only [generate_token_name, bind_eq_some, expect_eq_some, pure_eq_some] at h h'
  obtain ⟨-, -, -, -, rfl⟩ := h
  obtain ⟨-, -, -, -, heq⟩ := h'
  exact (List.append_cancel_left heq).symm

end Names

theorem mints_exactly {mint : Value} {token : AuthToken}
    (h : mint_auth_token mint token = true) :
    assets.quantity_of mint token.policy_id token.name = 1 ∧
      ∀ n, n ≠ token.name → assets.quantity_of mint token.policy_id n = 0 :=
  assets.tokens_eq_single (by simpa [mint_auth_token] using h)

end auth

end cardano_ibc
