import Mathlib.Tactic.Ring
-- Merkle trees with a prefix byte on leaves and another on inner nodes, over any
-- hash function and any rule for where a list is split.

namespace merkle_tree

variable (hash : List UInt8 → List UInt8) (split : Nat → Nat)

/-- The string hashed last for a list. The first argument bounds the depth: the length of
the list is enough. -/
def top : Nat → List (List UInt8) → List UInt8
  | _, [] => []
  | _, [x] => 0 :: x
  | 0, _ :: _ :: _ => []
  | depth + 1, x :: y :: zs =>
    let k := split (zs.length + 2)
    1 :: (hash (top depth ((x :: y :: zs).take k)) ++ hash (top depth ((x :: y :: zs).drop k)))

/-- The root of a list. -/
def root (depth : Nat) (xs : List (List UInt8)) : List UInt8 := hash (top hash split depth xs)

/-- Every string hashed on the way to the root of a list. -/
def hashed : Nat → List (List UInt8) → List (List UInt8)
  | depth + 1, x :: y :: zs =>
    let k := split (zs.length + 2)
    top hash split (depth + 1) (x :: y :: zs) ::
      (hashed depth ((x :: y :: zs).take k) ++ hashed depth ((x :: y :: zs).drop k))
  | depth, xs => [top hash split depth xs]

/-- A split rule that leaves something on both sides. -/
def Splits : Prop := ∀ n, 2 ≤ n → 0 < split n ∧ split n < n

variable {hash split}

theorem top_hashed (depth : Nat) (xs : List (List UInt8)) :
    top hash split depth xs ∈ hashed hash split depth xs := by
  unfold hashed
  split <;> exact List.mem_cons_self

section Halves

variable {depth : Nat} {x y : List UInt8} {zs : List (List UInt8)}

theorem left_hashed {m : List UInt8}
    (h : m ∈ hashed hash split depth ((x :: y :: zs).take (split (zs.length + 2)))) :
    m ∈ hashed hash split (depth + 1) (x :: y :: zs) := by
  simp only [hashed, List.mem_cons, List.mem_append]
  exact .inr (.inl h)

theorem right_hashed {m : List UInt8}
    (h : m ∈ hashed hash split depth ((x :: y :: zs).drop (split (zs.length + 2)))) :
    m ∈ hashed hash split (depth + 1) (x :: y :: zs) := by
  simp only [hashed, List.mem_cons, List.mem_append]
  exact .inr (.inr h)

theorem left_shorter (hs : Splits split) (h : (x :: y :: zs).length ≤ depth + 1) :
    ((x :: y :: zs).take (split (zs.length + 2))).length ≤ depth := by
  have := hs (zs.length + 2) (by omega)
  simp only [List.length_cons, List.length_take] at *
  omega

theorem right_shorter (hs : Splits split) (h : (x :: y :: zs).length ≤ depth + 1) :
    ((x :: y :: zs).drop (split (zs.length + 2))).length ≤ depth := by
  have := hs (zs.length + 2) (by omega)
  simp only [List.length_cons, List.length_drop] at *
  omega

end Halves

/-- Two lists with one root are one list, if no two of the strings hashed for them collide. -/
theorem root_injective {n : Nat} (hlen : ∀ m, (hash m).length = n) (hs : Splits split)
    (d : Nat) (xs : List (List UInt8)) (e : Nat) (ys : List (List UInt8))
    (hx : xs.length ≤ d) (hy : ys.length ≤ e)
    (inj : Set.InjOn hash {m | m ∈ hashed hash split d xs ∨ m ∈ hashed hash split e ys})
    (heq : root hash split d xs = root hash split e ys) : xs = ys := by
  induction d generalizing xs e ys with
  | zero =>
    obtain rfl : xs = [] := by simpa using hx
    have htop := inj (.inl (top_hashed _ _)) (.inr (top_hashed _ _)) heq
    match e, ys, hy with
    | _, [], _ => rfl
    | _, [y], _ => simp [top] at htop
    | e + 1, y :: y' :: ys, _ => simp [top] at htop
  | succ d ih =>
    have htop := inj (.inl (top_hashed _ _)) (.inr (top_hashed _ _)) heq
    match xs, e, ys, hx, hy with
    | [], _, [], _, _ => rfl
    | [], _, [y], _, _ => simp [top] at htop
    | [], e + 1, y :: y' :: ys, _, _ => simp [top] at htop
    | [x], _, [], _, _ => simp [top] at htop
    | [x], _, [y], _, _ => simpa [top] using htop
    | [x], e + 1, y :: y' :: ys, _, _ => simp [top] at htop
    | x :: x' :: xs, _, [], _, _ => simp [top] at htop
    | x :: x' :: xs, _, [y], _, _ => simp [top] at htop
    | x :: x' :: xs, e + 1, y :: y' :: ys, hx, hy =>
      simp only [top, List.cons.injEq, true_and] at htop
      obtain ⟨hleft, hright⟩ := List.append_inj htop (by rw [hlen, hlen])
      have left := ih _ e _ (left_shorter hs hx) (left_shorter hs hy)
        (inj.mono fun m hm => hm.imp left_hashed left_hashed) hleft
      have right := ih _ e _ (right_shorter hs hx) (right_shorter hs hy)
        (inj.mono fun m hm => hm.imp right_hashed right_hashed) hright
      rw [← List.take_append_drop (split (xs.length + 2)) (x :: x' :: xs), left, right,
        List.take_append_drop]

end merkle_tree
