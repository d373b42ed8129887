import Mathlib.Data.List.Induction
import Mathlib.Data.Set.Function
-- Binary trees under a hash function, each kind with its own way to write down a node, and proofs
-- that a leaf stands in one: the strings around the digest at every node on the way up.

namespace hash_tree

inductive Tree (α β : Type) where
  | leaf (a : α)
  | node (b : β) (left right : Tree α β)
deriving DecidableEq

inductive Side where
  | left | right
deriving DecidableEq, Repr

/-- What stands around the digest of a child in the string of a node. -/
structure Step where
  before : List UInt8
  after : List UInt8
deriving DecidableEq, Repr

def Step.wrap (s : Step) (digest : List UInt8) : List UInt8 := s.before ++ digest ++ s.after

/-- How nodes are written down and hashed. For an inner node it is said what stands around the
digest of the child on a side, given the digest of the other child. -/
structure Layout (α β : Type) where
  hash : List UInt8 → List UInt8
  size : Nat
  length_hash : ∀ m, (hash m).length = size
  leaf : α → List UInt8
  beside : β → Side → List UInt8 → Step
  agree : ∀ b l r, (beside b .right l).wrap r = (beside b .left r).wrap l

/-- The way down from the root to a leaf: the side that is taken at each node, and what stands
around the digest there. -/
abbrev Path := List (Side × Step)

variable {α β : Type} (L : Layout α β)

/-- The string of an inner node. -/
def Layout.node (b : β) (l r : List UInt8) : List UInt8 := (L.beside b .left r).wrap l

namespace Tree

/-- The string hashed last. -/
def top : Tree α β → List UInt8
  | leaf a => L.leaf a
  | node b l r => L.node b (L.hash l.top) (L.hash r.top)

def digest (t : Tree α β) : List UInt8 := L.hash (t.top L)

/-- Every string that is hashed for the nodes of a tree. -/
def hashed : Tree α β → List (List UInt8)
  | leaf a => [L.leaf a]
  | node b l r => (node b l r).top L :: (l.hashed ++ r.hashed)

def leaves : Tree α β → List α
  | leaf a => [a]
  | node _ l r => l.leaves ++ r.leaves

/-- The leaves from left to right, each with the way down to it. -/
def paths : Tree α β → List (α × Path)
  | leaf a => [(a, [])]
  | node b l r =>
    l.paths.map (fun p => (p.1, (.left, L.beside b .left (r.digest L)) :: p.2)) ++
      r.paths.map (fun p => (p.1, (.right, L.beside b .right (l.digest L)) :: p.2))

variable {L}

theorem top_hashed (t : Tree α β) : t.top L ∈ t.hashed L := by
  cases t <;> exact List.mem_cons_self

theorem map_fst_paths (t : Tree α β) : (t.paths L).map Prod.fst = t.leaves := by
  induction t with
  | leaf a => rfl
  | node b l r ihl ihr => simp [paths, leaves, ← ihl, ← ihr, Function.comp_def]

theorem leaf_of_path {t : Tree α β} {a : α} {p : Path} (h : (a, p) ∈ t.paths L) :
    a ∈ t.leaves := by
  rw [← t.map_fst_paths (L := L)]
  exact List.mem_map.mpr ⟨(a, p), h, rfl⟩

theorem paths_ne_nil (t : Tree α β) : t.paths L ≠ [] := by
  induction t with
  | leaf a => simp [paths]
  | node b l r ihl _ => simp [paths, ihl]

theorem length_digest (t : Tree α β) : (t.digest L).length = L.size := L.length_hash _

/-- The ways down to the leaves of an inner node. -/
theorem mem_paths_node {b : β} {l r : Tree α β} {a : α} {p : Path} :
    (a, p) ∈ (node b l r).paths L ↔
      (∃ p', (a, p') ∈ l.paths L ∧ p = (.left, L.beside b .left (r.digest L)) :: p') ∨
        ∃ p', (a, p') ∈ r.paths L ∧ p = (.right, L.beside b .right (l.digest L)) :: p' := by
  simp only [paths, List.mem_append, List.mem_map, Prod.mk.injEq, Prod.exists]
  constructor
  · rintro (⟨a', p', hmem, rfl, rfl⟩ | ⟨a', p', hmem, rfl, rfl⟩)
    · exact .inl ⟨p', hmem, rfl⟩
    · exact .inr ⟨p', hmem, rfl⟩
  · rintro (⟨p', hmem, rfl⟩ | ⟨p', hmem, rfl⟩)
    · exact .inl ⟨a, p', hmem, rfl, rfl⟩
    · exact .inr ⟨a, p', hmem, rfl, rfl⟩

/-- Each step of a way down is one beside a subtree. -/
theorem step_of_path {t : Tree α β} {a : α} {p : Path} (h : (a, p) ∈ t.paths L)
    {x : Side × Step} (hx : x ∈ p) :
    ∃ b, ∃ other : Tree α β, x.2 = L.beside b x.1 (other.digest L) := by
  induction t generalizing a p with
  | leaf a' =>
    simp only [paths, List.mem_singleton, Prod.mk.injEq] at h
    rw [h.2] at hx
    cases hx
  | node b l r ihl ihr =>
    rcases mem_paths_node.mp h with ⟨p', hmem, rfl⟩ | ⟨p', hmem, rfl⟩
    · rcases List.mem_cons.mp hx with rfl | hx
      · exact ⟨b, r, rfl⟩
      · exact ihl hmem hx
    · rcases List.mem_cons.mp hx with rfl | hx
      · exact ⟨b, l, rfl⟩
      · exact ihr hmem hx

end Tree

/-! ## Climbing -/

section Climb

variable (hash : List UInt8 → List UInt8)

/-- The digest got to from a digest below, one step after another from the bottom up. -/
def climb (digest : List UInt8) (steps : List Step) : List UInt8 :=
  steps.foldl (fun d s => hash (s.wrap d)) digest

/-- The strings hashed on the way. -/
def climbed : List UInt8 → List Step → List (List UInt8)
  | _, [] => []
  | d, s :: steps => s.wrap d :: climbed (hash (s.wrap d)) steps

variable {hash}

theorem climb_snoc (d : List UInt8) (steps : List Step) (s : Step) :
    climb hash d (steps ++ [s]) = hash (s.wrap (climb hash d steps)) := by
  simp [climb]

theorem climbed_snoc (d : List UInt8) (steps : List Step) (s : Step) :
    climbed hash d (steps ++ [s]) = climbed hash d steps ++ [s.wrap (climb hash d steps)] := by
  induction steps generalizing d with
  | nil => rfl
  | cons x steps ih => simp [climbed, ih, climb]

theorem length_climb {n : Nat} (hlen : ∀ m, (hash m).length = n) {d : List UInt8}
    (hd : d.length = n) (steps : List Step) : (climb hash d steps).length = n := by
  induction steps using List.reverseRecOn with
  | nil => exact hd
  | append_singleton steps s _ => rw [climb_snoc, hlen]

end Climb

variable {L}

/-- From a leaf up along its path one gets to the root. -/
theorem climb_path {t : Tree α β} {a : α} {p : Path} (h : (a, p) ∈ t.paths L) :
    climb L.hash (L.hash (L.leaf a)) (p.map Prod.snd).reverse = t.digest L := by
  induction t generalizing a p with
  | leaf a' =>
    simp only [Tree.paths, List.mem_singleton, Prod.mk.injEq] at h
    obtain ⟨rfl, rfl⟩ := h
    rfl
  | node b l r ihl ihr =>
    rcases Tree.mem_paths_node.mp h with ⟨p', hmem, rfl⟩ | ⟨p', hmem, rfl⟩
    · rw [List.map_cons, List.reverse_cons, climb_snoc, ihl hmem]
      rfl
    · rw [List.map_cons, List.reverse_cons, climb_snoc, ihr hmem, L.agree]
      rfl

/-- What is hashed on the way is hashed for the tree. -/
theorem climbed_path {t : Tree α β} {a : α} {p : Path} (h : (a, p) ∈ t.paths L)
    {m : List UInt8}
    (hm : m ∈ L.leaf a :: climbed L.hash (L.hash (L.leaf a)) (p.map Prod.snd).reverse) :
    m ∈ t.hashed L := by
  induction t generalizing a p with
  | leaf a' =>
    simp only [Tree.paths, List.mem_singleton, Prod.mk.injEq] at h
    obtain ⟨rfl, rfl⟩ := h
    exact hm
  | node b l r ihl ihr =>
    rcases Tree.mem_paths_node.mp h with ⟨p', hmem, rfl⟩ | ⟨p', hmem, rfl⟩
    · rw [List.map_cons, List.reverse_cons, climbed_snoc, climb_path hmem, ← List.cons_append,
        List.mem_append, List.mem_singleton] at hm
      rcases hm with hm | rfl
      · exact List.mem_cons_of_mem _ (List.mem_append_left _ (ihl hmem hm))
      · exact List.mem_cons_self
    · rw [List.map_cons, List.reverse_cons, climbed_snoc, climb_path hmem, L.agree,
        ← List.cons_append, List.mem_append, List.mem_singleton] at hm
      rcases hm with hm | rfl
      · exact List.mem_cons_of_mem _ (List.mem_append_right _ (ihr hmem hm))
      · exact List.mem_cons_self

/-- A rule for leaf strings and steps that tells the nodes of a layout apart: a leaf string is no
inner node, and a step around a digest is no leaf and an inner node in just one way. -/
structure Separates (L : Layout α β) (leafOk : List UInt8 → Prop) (stepOk : Step → Prop) :
    Prop where
  leaf_node : ∀ {x b l r}, leafOk x → x ≠ L.node b l r
  step_leaf : ∀ {s d a}, stepOk s → s.wrap d ≠ L.leaf a
  step_node : ∀ {s d b l r}, stepOk s → d.length = L.size → l.length = L.size →
    r.length = L.size → s.wrap d = L.node b l r →
    (d = l ∧ s = L.beside b .left r) ∨ (d = r ∧ s = L.beside b .right l)

/-- Steps that lead from a leaf string to the root of a tree are the way down to a leaf of it, if
no two of the strings collide. -/
theorem path_of_climb {leafOk : List UInt8 → Prop} {stepOk : Step → Prop}
    (sep : Separates L leafOk stepOk) {t : Tree α β} {x : List UInt8} {steps : List Step}
    (hx : leafOk x) (hsteps : ∀ s ∈ steps, stepOk s)
    (inj : Set.InjOn L.hash {m | m ∈ t.hashed L ∨ m ∈ x :: climbed L.hash (L.hash x) steps})
    (h : climb L.hash (L.hash x) steps = t.digest L) :
    ∃ a p, (a, p) ∈ t.paths L ∧ L.leaf a = x ∧ p.map Prod.snd = steps.reverse := by
  induction t generalizing steps with
  | leaf a =>
    rcases List.eq_nil_or_concat steps with rfl | ⟨steps, s, rfl⟩
    · have heq := inj (.inr List.mem_cons_self) (.inl (Tree.top_hashed _)) h
      exact ⟨a, [], List.mem_singleton_self _, heq.symm, rfl⟩
    · rw [List.concat_eq_append] at *
      rw [climb_snoc] at h
      have heq := inj (.inr (by simp [climbed_snoc])) (.inl (Tree.top_hashed _)) h
      exact absurd heq (sep.step_leaf (hsteps s (by simp)))
  | node b l r ihl ihr =>
    rcases List.eq_nil_or_concat steps with rfl | ⟨steps, s, rfl⟩
    · have heq := inj (.inr List.mem_cons_self) (.inl (Tree.top_hashed _)) h
      exact absurd heq (sep.leaf_node hx)
    · rw [List.concat_eq_append] at *
      rw [climb_snoc] at h
      have heq := inj (.inr (by simp [climbed_snoc])) (.inl (Tree.top_hashed _)) h
      have hbelow : ∀ s' ∈ steps, stepOk s' := fun s' hs' => hsteps s' (by simp [hs'])
      have hclimbed : ∀ m ∈ x :: climbed L.hash (L.hash x) steps,
          m ∈ x :: climbed L.hash (L.hash x) (steps ++ [s]) := by
        intro m hm
        rw [climbed_snoc, ← List.cons_append]
        exact List.mem_append_left _ hm
      rcases sep.step_node (hsteps s (by simp)) (length_climb L.length_hash (L.length_hash _) _)
        (L.length_hash _) (L.length_hash _) heq with ⟨hdown, rfl⟩ | ⟨hdown, rfl⟩
      · obtain ⟨a, p, hmem, hleaf, hp⟩ := ihl hbelow (inj.mono fun m hm =>
          hm.imp (fun h => List.mem_cons_of_mem _ (List.mem_append_left _ h)) (hclimbed m)) hdown
        refine ⟨a, _, Tree.mem_paths_node.mpr (.inl ⟨p, hmem, rfl⟩), hleaf, ?_⟩
        rw [List.map_cons, hp, List.reverse_append]
        rfl
      · obtain ⟨a, p, hmem, hleaf, hp⟩ := ihr hbelow (inj.mono fun m hm =>
          hm.imp (fun h => List.mem_cons_of_mem _ (List.mem_append_right _ h)) (hclimbed m)) hdown
        refine ⟨a, _, Tree.mem_paths_node.mpr (.inr ⟨p, hmem, rfl⟩), hleaf, ?_⟩
        rw [List.map_cons, hp, List.reverse_append]
        rfl

/-! ## Neighbours -/

/-- Two ways down that go the same way to a node, part there, and keep to one another below it. -/
def Adjacent : Path → Path → Prop
  | x :: p, y :: q => (x = y ∧ Adjacent p q) ∨
      (x.1 = .left ∧ y.1 = .right ∧ (∀ z ∈ p, z.1 = .right) ∧ ∀ z ∈ q, z.1 = .left)
  | _, _ => False

/-- One item comes right after another in a list. -/
def Next {γ : Type} (xs : List γ) (x y : γ) : Prop := ∃ before after, xs = before ++ x :: y :: after

section Next

variable {γ δ : Type} {xs ys : List γ} {x y : γ}

theorem Next.append_right (h : Next xs x y) (ys : List γ) : Next (xs ++ ys) x y := by
  obtain ⟨before, after, rfl⟩ := h
  exact ⟨before, after ++ ys, by simp⟩

theorem Next.append_left (h : Next ys x y) (xs : List γ) : Next (xs ++ ys) x y := by
  obtain ⟨before, after, rfl⟩ := h
  exact ⟨xs ++ before, after, by simp⟩

theorem Next.between (hx : xs.getLast? = some x) (hy : ys.head? = some y) :
    Next (xs ++ ys) x y := by
  obtain ⟨before, rfl⟩ := List.getLast?_eq_some_iff.mp hx
  obtain ⟨after, rfl⟩ := List.head?_eq_some_iff.mp hy
  exact ⟨before, after, by simp⟩

theorem Next.map (h : Next xs x y) (f : γ → δ) : Next (xs.map f) (f x) (f y) := by
  obtain ⟨before, after, rfl⟩ := h
  exact ⟨before.map f, after.map f, by simp⟩

/-- Two items next to one another in two lists put together. -/
theorem next_append (h : Next (xs ++ ys) x y) :
    Next xs x y ∨ Next ys x y ∨ (xs.getLast? = some x ∧ ys.head? = some y) := by
  obtain ⟨before, after, h⟩ := h
  rcases List.append_eq_append_iff.mp h with ⟨rest, rfl, rfl⟩ | ⟨rest, rfl, hrest⟩
  · exact .inr (.inl ⟨rest, after, rfl⟩)
  · rcases rest with _ | ⟨x', _ | ⟨y', rest⟩⟩
    · exact .inr (.inl ⟨[], after, by simpa using hrest.symm⟩)
    · simp only [List.cons_append, List.nil_append, List.cons.injEq] at hrest
      obtain ⟨rfl, rfl⟩ := hrest
      exact .inr (.inr ⟨by simp, rfl⟩)
    · simp only [List.cons_append, List.cons.injEq] at hrest
      obtain ⟨rfl, rfl, rfl⟩ := hrest
      exact .inl ⟨before, rest, rfl⟩

theorem next_map {f : δ → γ} {zs : List δ} (h : Next (zs.map f) x y) :
    ∃ x' y', Next zs x' y' ∧ f x' = x ∧ f y' = y := by
  obtain ⟨before, after, h⟩ := h
  obtain ⟨before', from_x, rfl, -, hx⟩ := List.map_eq_append_iff.mp h
  obtain ⟨x', from_y, rfl, rfl, hy⟩ := List.map_eq_cons_iff.mp hx
  obtain ⟨y', rest, rfl, rfl, -⟩ := List.map_eq_cons_iff.mp hy
  exact ⟨x', y', ⟨before', rest, rfl⟩, rfl, rfl⟩

theorem Next.mem (h : Next xs x y) : x ∈ xs ∧ y ∈ xs := by
  obtain ⟨before, after, rfl⟩ := h
  simp

end Next

namespace Tree

/-- The first leaf is the one on the left at every node. -/
theorem head?_paths {t : Tree α β} {a : α} {p : Path} :
    (t.paths L).head? = some (a, p) ↔ (a, p) ∈ t.paths L ∧ ∀ x ∈ p, x.1 = .left := by
  induction t generalizing a p with
  | leaf a' =>
    simp only [paths, List.head?_cons, Option.some.injEq, List.mem_singleton, Prod.mk.injEq]
    constructor
    · rintro ⟨rfl, rfl⟩
      simp
    · rintro ⟨⟨rfl, rfl⟩, -⟩
      simp
  | node b l r ihl _ =>
    have hleft : ((node b l r).paths L).head? = (l.paths L).head?.map fun p =>
        (p.1, (.left, L.beside b .left (r.digest L)) :: p.2) := by
      obtain ⟨first, rest, hrest⟩ := List.exists_cons_of_ne_nil (l.paths_ne_nil (L := L))
      rw [paths, hrest]
      rfl
    rw [hleft, mem_paths_node, Option.map_eq_some_iff]
    constructor
    · rintro ⟨⟨a', p'⟩, hhead, heq⟩
      cases heq
      obtain ⟨hmem, hside⟩ := ihl.mp hhead
      refine ⟨.inl ⟨p', hmem, rfl⟩, ?_⟩
      intro x hx
      rcases List.mem_cons.mp hx with rfl | hx
      · rfl
      · exact hside x hx
    · rintro ⟨⟨p', hmem, rfl⟩ | ⟨p', hmem, rfl⟩, hside⟩
      · exact ⟨(a, p'), ihl.mpr ⟨hmem, fun x hx => hside x (List.mem_cons_of_mem _ hx)⟩, rfl⟩
      · exact absurd (hside _ List.mem_cons_self) Side.noConfusion

/-- The last leaf is the one on the right at every node. -/
theorem getLast?_paths {t : Tree α β} {a : α} {p : Path} :
    (t.paths L).getLast? = some (a, p) ↔ (a, p) ∈ t.paths L ∧ ∀ x ∈ p, x.1 = .right := by
  induction t generalizing a p with
  | leaf a' =>
    simp only [paths, List.getLast?_singleton, Option.some.injEq, List.mem_singleton,
      Prod.mk.injEq]
    constructor
    · rintro ⟨rfl, rfl⟩
      simp
    · rintro ⟨⟨rfl, rfl⟩, -⟩
      simp
  | node b l r _ ihr =>
    have hright : ((node b l r).paths L).getLast? = (r.paths L).getLast?.map fun p =>
        (p.1, (.right, L.beside b .right (l.digest L)) :: p.2) := by
      have hlast := List.getLast?_eq_some_getLast (r.paths_ne_nil (L := L))
      rw [paths, List.getLast?_append, List.getLast?_map, hlast]
      rfl
    rw [hright, mem_paths_node, Option.map_eq_some_iff]
    constructor
    · rintro ⟨⟨a', p'⟩, hlast, heq⟩
      cases heq
      obtain ⟨hmem, hside⟩ := ihr.mp hlast
      refine ⟨.inr ⟨p', hmem, rfl⟩, ?_⟩
      intro x hx
      rcases List.mem_cons.mp hx with rfl | hx
      · rfl
      · exact hside x hx
    · rintro ⟨⟨p', hmem, rfl⟩ | ⟨p', hmem, rfl⟩, hside⟩
      · exact absurd (hside _ List.mem_cons_self) Side.noConfusion
      · exact ⟨(a, p'), ihr.mpr ⟨hmem, fun x hx => hside x (List.mem_cons_of_mem _ hx)⟩, rfl⟩

/-- No way down goes on where another one ends. -/
theorem path_not_longer {t : Tree α β} {a b : α} {p r : Path} (hp : (a, p) ∈ t.paths L)
    (hr : (b, p ++ r) ∈ t.paths L) : r = [] := by
  induction t generalizing a b p with
  | leaf a' =>
    simp only [paths, List.mem_singleton, Prod.mk.injEq, List.append_eq_nil_iff] at hr
    exact hr.2.2
  | node c l r' ihl ihr =>
    rcases mem_paths_node.mp hp with ⟨p', hp', rfl⟩ | ⟨p', hp', rfl⟩ <;>
      rcases mem_paths_node.mp hr with ⟨q', hq', heq⟩ | ⟨q', hq', heq⟩ <;>
      rw [List.cons_append, List.cons.injEq] at heq
    · rw [← heq.2] at hq'
      exact ihl hp' hq'
    · cases heq.1
    · cases heq.1
    · rw [← heq.2] at hq'
      exact ihr hp' hq'

/-- Two leaves are next to one another just if the ways down to them are. -/
theorem next_paths {t : Tree α β} {a b : α} {p q : Path} :
    Next (t.paths L) (a, p) (b, q) ↔
      (a, p) ∈ t.paths L ∧ (b, q) ∈ t.paths L ∧ Adjacent p q := by
  induction t generalizing a b p q with
  | leaf a' =>
    constructor
    · rintro ⟨_ | ⟨x, before⟩, after, h⟩ <;> simp [paths] at h
    · rintro ⟨hp, -, hadj⟩
      simp only [paths, List.mem_singleton, Prod.mk.injEq] at hp
      rw [hp.2] at hadj
      exact absurd hadj id
  | node c l r ihl ihr =>
    constructor
    · intro h
      refine ⟨h.mem.1, h.mem.2, ?_⟩
      rcases next_append h with h | h | ⟨hlast, hhead⟩
      · obtain ⟨⟨_, p'⟩, ⟨_, q'⟩, hnext, hp, hq⟩ := next_map h
        cases hp
        cases hq
        exact .inl ⟨rfl, (ihl.mp hnext).2.2⟩
      · obtain ⟨⟨_, p'⟩, ⟨_, q'⟩, hnext, hp, hq⟩ := next_map h
        cases hp
        cases hq
        exact .inl ⟨rfl, (ihr.mp hnext).2.2⟩
      · rw [List.getLast?_map, Option.map_eq_some_iff] at hlast
        rw [List.head?_map, Option.map_eq_some_iff] at hhead
        obtain ⟨⟨_, p'⟩, hlast, hp⟩ := hlast
        obtain ⟨⟨_, q'⟩, hhead, hq⟩ := hhead
        cases hp
        cases hq
        exact .inr ⟨rfl, rfl, (getLast?_paths.mp hlast).2, (head?_paths.mp hhead).2⟩
    · rintro ⟨hp, hq, hadj⟩
      rcases mem_paths_node.mp hp with ⟨p', hp', rfl⟩ | ⟨p', hp', rfl⟩ <;>
        rcases mem_paths_node.mp hq with ⟨q', hq', rfl⟩ | ⟨q', hq', rfl⟩ <;>
        rcases hadj with ⟨hsame, hadj⟩ | ⟨hside, hside', hright, hleft⟩
      · exact ((ihl.mpr ⟨hp', hq', hadj⟩).map _).append_right _
      · cases hside'
      · cases hsame
      · apply Next.between
        · rw [List.getLast?_map, getLast?_paths.mpr ⟨hp', hright⟩]
          rfl
        · rw [List.head?_map, head?_paths.mpr ⟨hq', hleft⟩]
          rfl
      · cases hsame
      · cases hside
      · exact ((ihr.mpr ⟨hp', hq', hadj⟩).map _).append_left _
      · cases hside

end Tree

end hash_tree
