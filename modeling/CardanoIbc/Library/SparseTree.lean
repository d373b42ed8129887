import Mathlib.Data.List.Induction
import Mathlib.Data.List.Perm.Basic
-- Sparse Merkle trees of a fixed depth: the root of a list of leaves, the hashes beside the way
-- to one leaf, and what somebody who gives such hashes for a known root must have given.

namespace sparse_tree

/-- How a tree is hashed. Two parts that hold nothing make one that holds nothing. -/
structure Scheme (α β : Type) where
  bit : α → Nat → Bool
  empty : β
  node : β → β → β
  node_empty : node empty empty = empty

variable {α β : Type} (S : Scheme α β)

/-- Two positions that are one in a tree of this depth. -/
def Scheme.agree (d : Nat) (p q : α) : Bool := (List.range d).all fun i => S.bit p i == S.bit q i

theorem agree_iff {d : Nat} {p q : α} : S.agree d p q = true ↔ ∀ i < d, S.bit p i = S.bit q i := by
  simp [Scheme.agree]

theorem agree_succ (d : Nat) (p q : α) :
    S.agree (d + 1) p q = (S.agree d p q && S.bit p d == S.bit q d) := by
  simp [Scheme.agree, List.range_succ]

/-- The leaves on one side of a tree's top. -/
def Scheme.side (d : Nat) (b : Bool) (es : List (α × β)) : List (α × β) :=
  es.filter fun e => S.bit e.1 d == b

/-- The root of a tree with these leaves; of two at one position the first counts. -/
def Scheme.root : Nat → List (α × β) → β
  | 0, [] => S.empty
  | 0, e :: _ => e.2
  | d + 1, es =>
    if es.isEmpty then S.empty
    else S.node (Scheme.root d (S.side d false es)) (Scheme.root d (S.side d true es))

/-- The hash that stands at a position. -/
def Scheme.leafAt (d : Nat) (es : List (α × β)) (p : α) : β :=
  match es.find? fun e => S.agree d p e.1 with
  | none => S.empty
  | some e => e.2

/-- The hashes beside the way to a position, lowest first. -/
def Scheme.siblings (p : α) : Nat → List (α × β) → List β
  | 0, _ => []
  | d + 1, es => Scheme.siblings p d (S.side d (S.bit p d) es) ++
      [S.root d (S.side d (!S.bit p d) es)]

/-- The leaves with another hash at a position. -/
def Scheme.put (d : Nat) (p : α) (leaf : β) (es : List (α × β)) : List (α × β) :=
  (p, leaf) :: es.filter fun e => !S.agree d p e.1

/-- The pair of hashes that is hashed on the way up at a height. -/
def Scheme.pair (p : α) (i : Nat) (current sibling : β) : β × β :=
  if S.bit p i then (sibling, current) else (current, sibling)

/-- The way up from a leaf, from a height on. -/
def Scheme.climb (p : α) : Nat → β → List β → β
  | _, current, [] => current
  | i, current, s :: rest =>
    let pair := S.pair p i current s
    Scheme.climb p (i + 1) (S.node pair.1 pair.2) rest

/-- The pairs that are hashed on the way up. -/
def Scheme.climbed (p : α) : Nat → β → List β → List (β × β)
  | _, _, [] => []
  | i, current, s :: rest =>
    let pair := S.pair p i current s
    pair :: Scheme.climbed p (i + 1) (S.node pair.1 pair.2) rest

/-! ## Roots -/

@[simp] theorem root_nil (d : Nat) : S.root d [] = S.empty := by
  cases d <;> simp [Scheme.root]

theorem root_succ (d : Nat) (es : List (α × β)) :
    S.root (d + 1) es = S.node (S.root d (S.side d false es)) (S.root d (S.side d true es)) := by
  cases es with
  | nil => simp [Scheme.root, Scheme.side, S.node_empty]
  | cons e es => simp [Scheme.root]

/-- The pair under the top of a tree, as one comes up to it. -/
theorem root_succ_pair (d : Nat) (p : α) (es : List (α × β)) :
    S.root (d + 1) es =
      S.node (S.pair p d (S.root d (S.side d (S.bit p d) es))
          (S.root d (S.side d (!S.bit p d) es))).1
        (S.pair p d (S.root d (S.side d (S.bit p d) es))
          (S.root d (S.side d (!S.bit p d) es))).2 := by
  rw [root_succ, Scheme.pair]
  cases S.bit p d <;> rfl

theorem climb_concat (p : α) (i : Nat) (current : β) (ss : List β) (s : β) :
    S.climb p i current (ss ++ [s]) =
      S.node (S.pair p (i + ss.length) (S.climb p i current ss) s).1
        (S.pair p (i + ss.length) (S.climb p i current ss) s).2 := by
  induction ss generalizing i current with
  | nil => rfl
  | cons t ss ih =>
    have hlength : i + (t :: ss).length = i + 1 + ss.length := by
      rw [List.length_cons]
      omega
    rw [hlength]
    exact ih (i + 1) _

theorem length_siblings (p : α) (d : Nat) (es : List (α × β)) :
    (S.siblings p d es).length = d := by
  induction d generalizing es with
  | zero => rfl
  | succ d ih => simp [Scheme.siblings, ih]

/-! ## One position -/

theorem side_put_same (d : Nat) (p : α) (leaf : β) (es : List (α × β)) :
    S.side d (S.bit p d) (S.put (d + 1) p leaf es) =
      S.put d p leaf (S.side d (S.bit p d) es) := by
  simp only [Scheme.side, Scheme.put, List.filter_cons, beq_self_eq_true, if_true,
    List.filter_filter]
  congr 1
  apply List.filter_congr
  intro e _
  rw [agree_succ]
  cases S.bit e.1 d <;> cases S.bit p d <;> simp

theorem side_put_other (d : Nat) (p : α) (leaf : β) (es : List (α × β)) :
    S.side d (!S.bit p d) (S.put (d + 1) p leaf es) = S.side d (!S.bit p d) es := by
  have hself : (S.bit p d == !S.bit p d) = false := by cases S.bit p d <;> rfl
  simp only [Scheme.side, Scheme.put, List.filter_cons, hself, List.filter_filter]
  apply List.filter_congr
  intro e _
  rw [agree_succ]
  cases S.bit e.1 d <;> cases S.bit p d <;> simp

/-- The way up beside a tree's own siblings leads to the tree with the leaf one came from. -/
theorem climb_siblings (p : α) (leaf : β) (d : Nat) (es : List (α × β)) :
    S.climb p 0 leaf (S.siblings p d es) = S.root d (S.put d p leaf es) := by
  induction d generalizing es with
  | zero => rfl
  | succ d ih =>
    rw [Scheme.siblings, climb_concat, length_siblings, Nat.zero_add, ih,
      root_succ_pair S d p, side_put_same, side_put_other]

theorem leafAt_side (d : Nat) (p : α) (es : List (α × β)) :
    S.leafAt d (S.side d (S.bit p d) es) p = S.leafAt (d + 1) es p := by
  have hfind : (S.side d (S.bit p d) es).find? (fun e => S.agree d p e.1) =
      es.find? fun e => S.agree (d + 1) p e.1 := by
    rw [Scheme.side, List.find?_filter]
    congr 1
    funext e
    rw [agree_succ]
    cases S.agree d p e.1 <;> cases S.bit e.1 d <;> cases S.bit p d <;> rfl
  rw [Scheme.leafAt, hfind, Scheme.leafAt]

/-- A tree's root is where its own leaf leads. -/
theorem climb_leafAt (p : α) (d : Nat) (es : List (α × β)) :
    S.climb p 0 (S.leafAt d es p) (S.siblings p d es) = S.root d es := by
  induction d generalizing es with
  | zero =>
    cases es with
    | nil => rfl
    | cons e es => rfl
  | succ d ih =>
    rw [Scheme.siblings, climb_concat, length_siblings, Nat.zero_add, ← leafAt_side, ih,
      root_succ_pair S d p]

/-! ## Roots that do not tell trees apart -/

/-- No two leaves stand at one position. -/
def Scheme.Separated (d : Nat) (es : List (α × β)) : Prop :=
  es.Pairwise fun e e' => S.agree d e.1 e'.1 = false

theorem agree_comm (d : Nat) (p q : α) : S.agree d p q = S.agree d q p := by
  rw [Bool.eq_iff_iff, agree_iff, agree_iff]
  exact ⟨fun h i hi => (h i hi).symm, fun h i hi => (h i hi).symm⟩

theorem separated_side {d : Nat} {es : List (α × β)} (h : S.Separated (d + 1) es) (b : Bool) :
    S.Separated d (S.side d b es) := by
  apply (h.filter _).imp_of_mem
  intro e e' he he' hapart
  simp only [List.mem_filter, beq_iff_eq] at he he'
  rw [agree_succ, he.2, he'.2] at hapart
  simpa using hapart

/-- The order of leaves that stand apart does not matter. -/
theorem root_perm {d : Nat} {es es' : List (α × β)} (h : S.Separated d es) (hperm : es.Perm es') :
    S.root d es = S.root d es' := by
  induction d generalizing es es' with
  | zero =>
    -- at depth zero all positions are one, so there is at most one leaf
    match es, h with
    | [], _ => rw [hperm.nil_eq]
    | [e], _ => rw [List.singleton_perm.mp hperm]
    | e :: e' :: _, h =>
      have hapart := (List.pairwise_cons.mp h).1 e' List.mem_cons_self
      simp [Scheme.agree] at hapart
  | succ d ih =>
    have hside : ∀ b, S.root d (S.side d b es) = S.root d (S.side d b es') := fun b =>
      ih (separated_side S h b) (hperm.filter _)
    rw [root_succ, root_succ, hside, hside]

/-- A leaf that holds nothing is as good as none. -/
theorem root_cons_empty {d : Nat} {p : α} {es : List (α × β)}
    (h : ∀ e ∈ es, S.agree d p e.1 = false) : S.root d ((p, S.empty) :: es) = S.root d es := by
  have hput : (p, S.empty) :: es = S.put d p S.empty es := by
    rw [Scheme.put, List.filter_eq_self.mpr]
    intro e he
    simp [h e he]
  have hleaf : S.leafAt d es p = S.empty := by
    rw [Scheme.leafAt, List.find?_eq_none.mpr]
    intro e he
    simp [h e he]
  rw [hput, ← climb_siblings, ← hleaf, climb_leafAt]

/-! ## What a way up to a known root tells -/

/-- No two of these pairs hash to one node. -/
def Scheme.Tells (pairs : List (β × β)) : Prop :=
  ∀ a ∈ pairs, ∀ b ∈ pairs, S.node a.1 a.2 = S.node b.1 b.2 → a = b

theorem climbed_concat (p : α) (i : Nat) (current : β) (ss : List β) (s : β) :
    S.climbed p i current (ss ++ [s]) = S.climbed p i current ss ++
      [S.pair p (i + ss.length) (S.climb p i current ss) s] := by
  induction ss generalizing i current with
  | nil => rfl
  | cons t ss ih =>
    have hlength : i + (t :: ss).length = i + 1 + ss.length := by
      rw [List.length_cons]
      omega
    rw [hlength]
    exact congrArg (_ :: ·) (ih (i + 1) _)

theorem pair_inj {p : α} {i : Nat} {current current' sibling sibling' : β}
    (h : S.pair p i current sibling = S.pair p i current' sibling') :
    current = current' ∧ sibling = sibling' := by
  unfold Scheme.pair at h
  split at h
  · rw [Prod.mk.injEq] at h
    exact ⟨h.2, h.1⟩
  · rw [Prod.mk.injEq] at h
    exact h

/-- Two ways up to one root, from one position, are one way. -/
theorem climb_inj {p : α} {leaf leaf' : β} {ss ss' : List β} (hlength : ss.length = ss'.length)
    (htells : S.Tells (S.climbed p 0 leaf ss ++ S.climbed p 0 leaf' ss'))
    (h : S.climb p 0 leaf ss = S.climb p 0 leaf' ss') : leaf = leaf' ∧ ss = ss' := by
  induction ss using List.reverseRecOn generalizing ss' with
  | nil =>
    obtain rfl := List.length_eq_zero_iff.mp hlength.symm
    exact ⟨h, rfl⟩
  | append_singleton ss s ih =>
    obtain rfl | ⟨ss', s', rfl⟩ := List.eq_nil_or_concat' ss'
    · simp at hlength
    · have hlength' : ss.length = ss'.length := by simpa using hlength
      rw [climb_concat, climb_concat, hlength'] at h
      rw [climbed_concat, climbed_concat, hlength'] at htells
      obtain ⟨hbelow, rfl⟩ := pair_inj S (htells _ (by simp) _ (by simp) h)
      obtain ⟨rfl, rfl⟩ := ih hlength' (fun a ha b hb => htells a (by
        simp only [List.mem_append] at ha ⊢
        exact ha.imp .inl .inl) b (by
        simp only [List.mem_append] at hb ⊢
        exact hb.imp .inl .inl)) hbelow
      exact ⟨rfl, rfl⟩

end sparse_tree
