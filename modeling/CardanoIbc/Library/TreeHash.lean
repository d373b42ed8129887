-- The hash of a list as RFC 6962 defines it: a list of more than one item is cut at the largest power
-- of two below its length.
import CardanoIbc.Library.MerkleTree

namespace merkle_tree

/-- The largest power of two below a number. -/
def IsSplit (n k : Nat) : Prop := (∃ i, k = 2 ^ i) ∧ k < n ∧ ∀ i, 2 ^ i < n → 2 ^ i ≤ k

theorem IsSplit.unique {n k k' : Nat} (h : IsSplit n k) (h' : IsSplit n k') : k = k' := by
  obtain ⟨⟨i, rfl⟩, hlt, hmax⟩ := h
  obtain ⟨⟨j, rfl⟩, hlt', hmax'⟩ := h'
  exact Nat.le_antisymm (hmax' i hlt) (hmax j hlt')

theorem IsSplit.pos {n k : Nat} (h : IsSplit n k) : 0 < k := by
  obtain ⟨⟨i, rfl⟩, -⟩ := h
  exact Nat.two_pow_pos i

variable {hash : List UInt8 → List UInt8} {split : Nat → Nat}

inductive TreeHash (hash : List UInt8 → List UInt8) : List (List UInt8) → List UInt8 → Prop
  | empty : TreeHash hash [] (hash [])
  | leaf (d : List UInt8) : TreeHash hash [d] (hash (0 :: d))
  | node {left right : List (List UInt8)} {a b : List UInt8}
      (cut : IsSplit (left ++ right).length left.length) (first : TreeHash hash left a)
      (rest : TreeHash hash right b) : TreeHash hash (left ++ right) (hash (1 :: (a ++ b)))

/-- A list has one hash. -/
theorem TreeHash.unique {xs : List (List UInt8)} {a b : List UInt8} (h : TreeHash hash xs a)
    (h' : TreeHash hash xs b) : a = b := by
  induction h generalizing b with
  | empty =>
    generalize hxs : ([] : List (List UInt8)) = xs at h'
    cases h' with
    | empty => rfl
    | leaf d => cases hxs
    | node cut _ _ =>
      rw [← hxs] at cut
      exact absurd cut.2.1 (Nat.not_lt_zero _)
  | leaf d =>
    generalize hxs : [d] = xs at h'
    cases h' with
    | empty => cases hxs
    | leaf d' =>
      cases hxs
      rfl
    | node cut _ _ =>
      have hpos := cut.pos
      have hlt := cut.2.1
      rw [← hxs, List.length_singleton] at hlt
      omega
  | node cut first rest ihfirst ihrest =>
    rename_i left right a' b'
    have hpos := cut.pos
    have hlt := cut.2.1
    generalize hxs : left ++ right = xs at h' cut hlt
    cases h' with
    | empty => exact absurd hlt (Nat.not_lt_zero _)
    | leaf d =>
      rw [List.length_singleton] at hlt
      omega
    | node cut' first' rest' =>
      obtain ⟨rfl, rfl⟩ := List.append_inj hxs (cut.unique cut')
      rw [ihfirst first', ihrest rest']

theorem splits_of_isSplit (hs : ∀ n, 2 ≤ n → IsSplit n (split n)) : Splits split :=
  fun n hn => ⟨(hs n hn).pos, (hs n hn).2.1⟩

/-- The root of a list under a rule that cuts there is that hash. -/
theorem treeHash_root (hs : ∀ n, 2 ≤ n → IsSplit n (split n)) {depth : Nat}
    {xs : List (List UInt8)} (h : xs.length ≤ depth) :
    TreeHash hash xs (root hash split depth xs) := by
  induction depth generalizing xs with
  | zero =>
    obtain rfl : xs = [] := by simpa using h
    exact .empty
  | succ depth ih =>
    match xs with
    | [] => exact .empty
    | [x] => exact .leaf x
    | x :: y :: zs =>
      have hcut := hs (zs.length + 2) (by omega)
      have hsplits := splits_of_isSplit hs
      have hnode := @TreeHash.node hash _ _ _ _ (by
          rw [List.take_append_drop, List.length_take, Nat.min_eq_left]
          · exact hcut
          · exact Nat.le_of_lt hcut.2.1)
        (ih (left_shorter hsplits h)) (ih (right_shorter hsplits h))
      rwa [List.take_append_drop] at hnode

end merkle_tree
