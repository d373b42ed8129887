-- Sparse Merkle trees level by level: the nodes of a level by their numbers, and the hashes beside
-- a way up as nodes of the levels.
import CardanoIbc.Library.SparseTree
import Mathlib.Data.Nat.Bitwise

namespace sparse_tree

variable {α β : Type} (S : Scheme α β) (index : α → Nat)

/-- The bits of a position, up to a depth, are the bits of its number. -/
def Scheme.Indexed (depth : Nat) (p : α) : Prop :=
  ∀ d < depth, S.bit p d = decide (index p / 2 ^ d % 2 = 1)

/-- The leaves under a node: those whose number begins with the node's. -/
def under (d i : Nat) (es : List (α × β)) : List (α × β) :=
  es.filter fun e => index e.1 / 2 ^ d == i

/-- The number of the node on the other side. -/
def beside (i : Nat) : Nat := i ^^^ 1

theorem beside_eq (i : Nat) : beside i = 2 * (i / 2) + if i % 2 = 1 then 0 else 1 := by
  rw [beside]
  rcases Nat.mod_two_eq_zero_or_one i with h | h
  · rw [Nat.xor_one_of_even (Nat.even_iff.mpr h)]
    simp [h]
    omega
  · rw [Nat.xor_one_of_odd (Nat.odd_iff.mpr h)]
    simp [h]
    omega

variable {S index} {depth : Nat} {es : List (α × β)}

theorem side_under {d i : Nat} (b : Bool) (h : ∀ e ∈ es, S.Indexed index depth e.1)
    (hd : d < depth) :
    S.side d b (under index (d + 1) i es) = under index d (2 * i + b.toNat) es := by
  rw [Scheme.side, under, List.filter_filter, under]
  refine List.filter_congr ?_
  intro e he
  rw [h e he d hd, Nat.pow_succ, ← Nat.div_div_eq_div_mul, Bool.eq_iff_iff]
  cases b <;> simp only [Bool.and_eq_true, beq_iff_eq, decide_eq_true_eq, decide_eq_false_iff_not,
    Bool.toNat_true, Bool.toNat_false] <;> omega

/-- A node is hashed from the two below it. -/
theorem root_under_succ {d : Nat} (i : Nat) (h : ∀ e ∈ es, S.Indexed index depth e.1)
    (hd : d < depth) :
    S.root (d + 1) (under index (d + 1) i es) =
      S.node (S.root d (under index d (2 * i) es)) (S.root d (under index d (2 * i + 1) es)) := by
  rw [root_succ, side_under false h hd, side_under true h hd]
  rfl

/-- The hashes beside a way up are the nodes beside those on the way. -/
theorem siblings_under {p : α} {d : Nat} (hp : S.Indexed index depth p)
    (h : ∀ e ∈ es, S.Indexed index depth e.1) (hd : d ≤ depth) :
    S.siblings p d (under index d (index p / 2 ^ d) es) =
      (List.range d).map fun k => S.root k (under index k (beside (index p / 2 ^ k)) es) := by
  induction d with
  | zero => rfl
  | succ d ih =>
    have hhalf : index p / 2 ^ d / 2 = index p / 2 ^ (d + 1) := by
      rw [Nat.pow_succ, Nat.div_div_eq_div_mul]
    have hbit := hp d hd
    have hown : 2 * (index p / 2 ^ (d + 1)) + (S.bit p d).toNat = index p / 2 ^ d := by
      rw [← hhalf, hbit]
      rcases Nat.mod_two_eq_zero_or_one (index p / 2 ^ d) with hmod | hmod <;>
        simp [hmod] <;> omega
    have hother : 2 * (index p / 2 ^ (d + 1)) + (!S.bit p d).toNat =
        beside (index p / 2 ^ d) := by
      rw [beside_eq, hhalf, hbit]
      rcases Nat.mod_two_eq_zero_or_one (index p / 2 ^ d) with hmod | hmod <;> simp [hmod]
    rw [Scheme.siblings, side_under _ h hd, side_under _ h hd, hown, hother,
      ih (Nat.le_of_succ_le hd), List.range_succ, List.map_append]
    rfl

/-- All leaves are under the top. -/
theorem under_top {d : Nat} (h : ∀ e ∈ es, index e.1 < 2 ^ d) : under index d 0 es = es := by
  rw [under, List.filter_eq_self]
  intro e he
  rw [Nat.div_eq_of_lt (h e he)]
  rfl

end sparse_tree
