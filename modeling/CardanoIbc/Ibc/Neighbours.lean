-- Which ways down to the leaves of a store the checks for neighbours accept (ics23/proof.ak):
-- `is_left_most`, `is_right_most` and the loop of `is_left_neighbor`.
import CardanoIbc.Ibc.Iavl

namespace cardano_ibc

open hash_tree

/-! ## The padding of a step -/

/-- The inner nodes of an IAVL tree. -/
abbrev iavlInner : InnerSpec := iavl_spec.inner_spec

/-- The padding of a left child: what is before it, and the right child after it. -/
def PadsLeft (op : InnerOp) : Prop :=
  4 ≤ op.prefixBytes.length ∧ op.prefixBytes.length ≤ 12 ∧ op.suffix.length = 33

/-- The padding of a right child: what is before it, the left child with it. -/
def PadsRight (op : InnerOp) : Prop :=
  37 ≤ op.prefixBytes.length ∧ op.prefixBytes.length ≤ 45 ∧ op.suffix.length = 0

theorem has_padding_left {op : InnerOp} : has_padding op (4, 12, 33) = true ↔ PadsLeft op := by
  simp only [has_padding, PadsLeft, Bool.and_eq_true, Bool.not_eq_eq_eq_not, Bool.not_true,
    Bool.or_eq_false_iff, decide_eq_false_iff_not, beq_iff_eq]
  omega

theorem has_padding_right {op : InnerOp} : has_padding op (37, 45, 0) = true ↔ PadsRight op := by
  simp only [has_padding, PadsRight, Bool.and_eq_true, Bool.not_eq_eq_eq_not, Bool.not_true,
    Bool.or_eq_false_iff, decide_eq_false_iff_not, beq_iff_eq]
  omega

theorem PadsLeft.not_right {op : InnerOp} (h : PadsLeft op) : ¬ PadsRight op := by
  intro hright
  have hleft := h.2.2
  rw [hright.2.2] at hleft
  cases hleft

theorem get_padding_left : get_padding iavlInner 0 = some (4, 12, 33) := by decide

theorem get_padding_right : get_padding iavlInner 1 = some (37, 45, 0) := by decide

theorem order_from_padding_iavl (op : InnerOp) : order_from_padding iavlInner op =
    if has_padding op (4, 12, 33) then some 0
    else if has_padding op (37, 45, 0) then some 1 else none := by
  have hrange : List.range iavlInner.child_order.length = [0, 1] := by decide
  rw [order_from_padding, hrange]
  cases hleft : has_padding op (4, 12, 33) <;> cases hright : has_padding op (37, 45, 0) <;>
    simp [get_padding_left, get_padding_right, hleft, hright, expect]

theorem order_eq_zero {op : InnerOp} : order_from_padding iavlInner op = some 0 ↔ PadsLeft op := by
  rw [order_from_padding_iavl, ← has_padding_left]
  cases hleft : has_padding op (4, 12, 33) <;> cases hright : has_padding op (37, 45, 0) <;> simp

theorem order_eq_one {op : InnerOp} : order_from_padding iavlInner op = some 1 ↔ PadsRight op := by
  rw [order_from_padding_iavl]
  by_cases hleft : has_padding op (4, 12, 33) = true
  · have hnot := (has_padding_left.mp hleft).not_right
    simp [hleft, hnot]
  · rw [if_neg hleft, ← has_padding_right]
    cases hright : has_padding op (37, 45, 0) <;> simp

theorem order_cases {op : InnerOp} {order : Int} (h : order_from_padding iavlInner op = some order) :
    (order = 0 ∧ PadsLeft op) ∨ (order = 1 ∧ PadsRight op) := by
  have hcases : order = 0 ∨ order = 1 := by
    rw [order_from_padding_iavl] at h
    split at h
    · exact .inl (Option.some.inj h).symm
    · split at h
      · exact .inr (Option.some.inj h).symm
      · cases h
  rcases hcases with rfl | rfl
  · exact .inl ⟨rfl, order_eq_zero.mp h⟩
  · exact .inr ⟨rfl, order_eq_one.mp h⟩

/-- A child is no placeholder in an IAVL tree: an empty one has no bytes. -/
theorem branch_not_empty {padding : Bytes} {start : Nat} (h : start + 33 ≤ padding.length) :
    branchesAreEmpty iavlInner padding start 1 = some false := by
  have hposition : get_position iavlInner.child_order 0 = some 0 := by decide
  have hlength : (bytearray.slice padding start (start + 33 - 1)).length = 33 := by
    simp only [bytearray.slice, List.length_take, List.length_drop]
    omega
  have hslice : (iavlInner.empty_child == bytearray.slice padding (start + 0 * iavlInner.child_size)
      (start + 0 * iavlInner.child_size + iavlInner.child_size - 1)) = false := by
    rw [beq_eq_false_iff_ne]
    intro hempty
    have hsize : iavlInner.child_size = 33 := rfl
    rw [hsize, Int.zero_mul, Int.add_zero] at hempty
    rw [← hempty] at hlength
    cases hlength
  have hrange : List.range (1 : Int).toNat = [0] := by decide
  have hints : (do let i ← [0]; pure ((i : Nat) : Int)) = [(0 : Int)] := rfl
  rw [branchesAreEmpty, hrange, hints]
  simp only [List.allM, hposition, Option.bind_eq_bind, Option.bind_some, hslice]
  rfl

theorem left_branches_not_empty (op : InnerOp) :
    left_branches_are_empty iavlInner op ≠ some true := by
  rw [left_branches_are_empty]
  cases horder : order_from_padding iavlInner op with
  | none => simp
  | some order =>
    rcases order_cases horder with ⟨rfl, -⟩ | ⟨rfl, hpads⟩
    · simp
    · obtain ⟨hmin, -, -⟩ := hpads
      have hsize : iavlInner.child_size = 33 := rfl
      have hstart : (op.prefixBytes.length : Int) - 1 * iavlInner.child_size =
          ((op.prefixBytes.length - 33 : Nat) : Int) := by
        rw [hsize]
        omega
      have hnot : ¬ ((1 : Int) = 0 ∨ ((op.prefixBytes.length - 33 : Nat) : Int) < 0) := by omega
      rw [Option.bind_eq_bind, Option.bind_some, hstart, if_neg hnot, branch_not_empty (by omega)]
      simp

theorem right_branches_not_empty (op : InnerOp) :
    right_branches_are_empty iavlInner op ≠ some true := by
  rw [right_branches_are_empty]
  cases horder : order_from_padding iavlInner op with
  | none => simp
  | some order =>
    have htwo : (iavlInner.child_order.length : Int) = 2 := rfl
    have hsize : iavlInner.child_size = 33 := rfl
    rcases order_cases horder with ⟨rfl, hpads⟩ | ⟨rfl, -⟩
    · obtain ⟨-, -, hsuffix⟩ := hpads
      have hnot : ¬ ((2 : Int) - 1 - 0 = 0 ∨
          (op.suffix.length : Int) ≠ (2 - 1 - 0) * iavlInner.child_size) := by
        rw [hsize, hsuffix]
        decide
      have hempty : branchesAreEmpty iavlInner op.suffix ((0 : Nat) : Int) 1 = some false :=
        branch_not_empty (by omega)
      have hone : (2 : Int) - 1 - 0 = 1 := by decide
      rw [Option.bind_eq_bind, Option.bind_some, htwo, if_neg hnot, hone]
      exact fun htrue => absurd (hempty.symm.trans htrue) (by simp)
    · rw [Option.bind_eq_bind, Option.bind_some, htwo]
      simp

theorem allM_of_all {α : Type} {test : α → Option Bool} {xs : List α}
    (h : ∀ x ∈ xs, test x = some true) : xs.allM test = some true := by
  induction xs with
  | nil => rfl
  | cons x xs ih =>
    rw [List.allM, h x List.mem_cons_self]
    exact ih fun y hy => h y (List.mem_cons_of_mem _ hy)

theorem is_left_most_iavl {ops : List InnerOp} :
    is_left_most iavlInner ops = some true ↔ ∀ op ∈ ops, PadsLeft op := by
  rw [is_left_most, get_padding_left, Option.bind_eq_bind, Option.bind_some]
  constructor
  · intro h op hop
    have hop := all_of_allM h op hop
    by_cases hpads : has_padding op (4, 12, 33) = true
    · exact has_padding_left.mp hpads
    · rw [if_neg hpads] at hop
      exact absurd hop (left_branches_not_empty op)
  · intro h
    refine allM_of_all fun op hop => ?_
    rw [if_pos (has_padding_left.mpr (h op hop))]

theorem is_right_most_iavl {ops : List InnerOp} :
    is_right_most iavlInner ops = some true ↔ ∀ op ∈ ops, PadsRight op := by
  have hlast : ((iavlInner.child_order.length : Int) - 1) = 1 := rfl
  rw [is_right_most, hlast, get_padding_right, Option.bind_eq_bind, Option.bind_some]
  constructor
  · intro h op hop
    have hop := all_of_allM h op hop
    by_cases hpads : has_padding op (37, 45, 0) = true
    · exact has_padding_right.mp hpads
    · rw [if_neg hpads] at hop
      exact absurd hop (right_branches_not_empty op)
  · intro h
    refine allM_of_all fun op hop => ?_
    rw [if_pos (has_padding_right.mpr (h op hop))]

theorem is_left_step_iavl {left right : InnerOp} :
    is_left_step iavlInner left right = some true ↔ PadsLeft left ∧ PadsRight right := by
  simp only [is_left_step, bind_eq_some, pure_eq_some, beq_iff_eq]
  constructor
  · rintro ⟨order, hright, order', hleft, rfl⟩
    rcases order_cases hleft with ⟨rfl, hpads⟩ | ⟨rfl, -⟩
    · exact ⟨hpads, order_eq_one.mp hright⟩
    · rcases order_cases hright with ⟨hne, -⟩ | ⟨hne, -⟩ <;> cases hne
  · rintro ⟨hleft, hright⟩
    exact ⟨1, order_eq_one.mpr hright, 0, order_eq_zero.mpr hleft, rfl⟩

/-! ## The way down of two paths -/

/-- The slice that leaves out the last item of a list, if there is another one. -/
theorem slice_dropLast {α : Type} {xs : List α} (h : 2 ≤ xs.length) :
    list.slice xs 0 (xs.length - 2) = xs.dropLast := by
  have hend : (xs.length : Int) - 2 ≥ 0 := by omega
  have hcount : ((xs.length : Int) - 2 - 0 + 1).toNat = xs.length - 1 := by omega
  simp only [list.slice, ge_iff_le, Int.le_refl, if_true, if_pos hend, hcount,
    List.dropLast_eq_take]
  rfl

/-- The slice of a list of one item is all of it. -/
theorem slice_singleton {α : Type} (x : α) :
    list.slice [x] 0 (([x].length : Int) - 2) = [x] := rfl

theorem at_last {α : Type} (xs : List α) : list.«at» xs (xs.length - 1) = xs.getLast? := by
  rcases List.eq_nil_or_concat xs with rfl | ⟨ys, x, rfl⟩
  · rfl
  · have hnot : ¬ ((ys.concat x).length : Int) - 1 < 0 := by
      simp only [List.length_concat]
      omega
    have hindex : (((ys.concat x).length : Int) - 1).toNat = ys.length := by
      simp only [List.length_concat]
      omega
    rw [list.«at», if_neg hnot, hindex]
    simp

theorem remaining_eq (path : List InnerOp) : remaining path = path.dropLast := by
  unfold remaining
  split
  · rename_i hshort
    rcases path with _ | ⟨x, _ | ⟨y, rest⟩⟩
    · rfl
    · rfl
    · simp only [List.length_cons] at hshort
      omega
  · rename_i hlong
    exact slice_dropLast (by omega)

theorem dropLast_opsOf (p : Path) : (opsOf p).dropLast = opsOf p.tail := by
  cases p with
  | nil => rfl
  | cons x p => simp [opsOf_cons]

theorem getLast?_opsOf (p : Path) : (opsOf p).getLast? = p.head?.map fun x => opOf x.2 := by
  cases p with
  | nil => rfl
  | cons x p => simp [opsOf_cons]

/-- Where the two paths are on the way down, as long as they are one. -/
def descentAt (p q : Path) : Descent :=
  { left := opsOf p.tail
    right := opsOf q.tail
    opt_top_left := p.head?.map fun x => opOf x.2
    opt_top_right := q.head?.map fun x => opOf x.2
    is_break := false }

/-- What is left of two paths once they have parted is checked. -/
def checkParted (accum : Descent) : Option Bool := do
  let top_left ← accum.opt_top_left
  let top_right ← accum.opt_top_right
  is_left_step iavlInner top_left top_right <&&> is_right_most iavlInner accum.left <&&>
    is_left_most iavlInner accum.right

/-- The loop as a recursion on the two paths. -/
def partsWell : Path → Path → Option Bool
  | x :: p, y :: q =>
    if x.2 = y.2 then partsWell p q
    else is_left_step iavlInner (opOf x.2) (opOf y.2) <&&> is_right_most iavlInner (opsOf p) <&&>
      is_left_most iavlInner (opsOf q)
  | _, _ => none

theorem opOf_same {s s' : Step} : ((opOf s).prefixBytes = (opOf s').prefixBytes ∧
    (opOf s).suffix = (opOf s').suffix) ↔ s = s' := by
  cases s
  cases s'
  simp [opOf]

/-- Two steps that are not one end the way down. -/
theorem descend_apart {accum : Descent} {s s' : Step} (hbreak : accum.is_break = false)
    (hleft : accum.opt_top_left = some (opOf s)) (hright : accum.opt_top_right = some (opOf s'))
    (hne : s ≠ s') : descend accum = some { accum with is_break := true } := by
  simp only [descend, hbreak, Bool.false_eq_true, if_false, hleft, hright, Option.bind_eq_bind,
    Option.bind_some, opOf_same, if_neg hne]
  rfl

theorem descend_along {x y : Side × Step} (hsame : x.2 = y.2) (p q : Path) :
    descend (descentAt (x :: p) (y :: q)) = some (descentAt p q) := by
  simp only [descend, descentAt, Bool.false_eq_true, if_false, List.head?_cons, Option.map_some,
    Option.bind_eq_bind, Option.bind_some, opOf_same, if_pos hsame, List.tail_cons, remaining_eq,
    at_last, dropLast_opsOf, getLast?_opsOf]
  rfl

theorem fold_descend_break {α : Type} (turns : List α) {accum : Descent}
    (h : accum.is_break = true) : turns.foldlM (fun accum _ => descend accum) accum = some accum := by
  induction turns with
  | nil => rfl
  | cons turn turns ih =>
    have hstay : descend accum = some accum := by rw [descend, if_pos h]
    rw [List.foldlM_cons, hstay]
    exact ih

theorem fold_descend_apart {α : Type} (turn : α) (turns : List α) {accum : Descent} {s s' : Step}
    (hbreak : accum.is_break = false) (hleft : accum.opt_top_left = some (opOf s))
    (hright : accum.opt_top_right = some (opOf s')) (hne : s ≠ s') :
    (turn :: turns).foldlM (fun accum _ => descend accum) accum =
      some { accum with is_break := true } := by
  rw [List.foldlM_cons, descend_apart hbreak hleft hright hne]
  exact fold_descend_break turns rfl

theorem fold_descend {α : Type} (turns : List α) {p q : Path} (h : p.length ≤ turns.length) :
    (turns.foldlM (fun accum _ => descend accum) (descentAt p q) >>= checkParted) =
      partsWell p q := by
  induction turns generalizing p q with
  | nil =>
    obtain rfl : p = [] := List.length_eq_zero_iff.mp (by simpa using h)
    rfl
  | cons turn turns ih =>
    rcases p with _ | ⟨x, p⟩
    · rfl
    rcases q with _ | ⟨y, q⟩
    · rfl
    rw [partsWell]
    by_cases hsame : x.2 = y.2
    · rw [List.foldlM_cons, descend_along hsame, if_pos hsame]
      exact ih (by simpa using h)
    · rw [fold_descend_apart turn turns rfl rfl rfl hsame, if_neg hsame]
      rfl

theorem is_left_neighbor_eq {left right : List InnerOp} : is_left_neighbor iavlInner left right =
    ((List.range left.length).foldlM (fun accum _ => descend accum)
      { left := list.slice left 0 (left.length - 2)
        right := list.slice right 0 (right.length - 2)
        opt_top_left := left.getLast?
        opt_top_right := right.getLast?
        is_break := false } >>= checkParted) := by
  rw [is_left_neighbor, at_last, at_last]
  rfl

/-- Paths of two steps and more are followed down to where they part. -/
theorem is_left_neighbor_long {p q : Path} (hp : 2 ≤ p.length) (hq : 2 ≤ q.length) :
    is_left_neighbor iavlInner (opsOf p) (opsOf q) = partsWell p q := by
  rw [is_left_neighbor_eq, slice_dropLast (by rwa [length_opsOf]),
    slice_dropLast (by rwa [length_opsOf]), dropLast_opsOf, dropLast_opsOf, getLast?_opsOf,
    getLast?_opsOf]
  exact fold_descend _ (by rw [List.length_range, length_opsOf])

theorem checkParted_eq_true {accum : Descent} : checkParted accum = some true ↔
    ∃ top_left top_right, accum.opt_top_left = some top_left ∧
      accum.opt_top_right = some top_right ∧ PadsLeft top_left ∧ PadsRight top_right ∧
      (∀ op ∈ accum.left, PadsRight op) ∧ ∀ op ∈ accum.right, PadsLeft op := by
  simp only [checkParted, bind_eq_some, and_accepts, is_left_step_iavl, is_right_most_iavl,
    is_left_most_iavl]
  constructor
  · rintro ⟨top_left, hl, top_right, hr, ⟨hpl, hpr⟩, hright, hleft⟩
    exact ⟨top_left, top_right, hl, hr, hpl, hpr, hright, hleft⟩
  · rintro ⟨top_left, top_right, hl, hr, hpl, hpr, hright, hleft⟩
    exact ⟨top_left, hl, top_right, hr, ⟨hpl, hpr⟩, hright, hleft⟩

/-- Two paths that part at the top. Of a path of one step, that step is checked twice. -/
theorem is_left_neighbor_parted {x y : Side × Step} {p q : Path} (hne : x.2 ≠ y.2)
    (h : is_left_neighbor iavlInner (opsOf (x :: p)) (opsOf (y :: q)) = some true) :
    PadsLeft (opOf x.2) ∧ PadsRight (opOf y.2) ∧
      (∀ op ∈ list.slice (opsOf (x :: p)) 0 ((opsOf (x :: p)).length - 2), PadsRight op) ∧
      ∀ op ∈ list.slice (opsOf (y :: q)) 0 ((opsOf (y :: q)).length - 2), PadsLeft op := by
  have hrange : List.range (opsOf (x :: p)).length =
      0 :: (List.range p.length).map Nat.succ := by
    rw [length_opsOf, List.length_cons, List.range_succ_eq_map]
  rw [is_left_neighbor_eq, hrange, getLast?_opsOf, getLast?_opsOf,
    fold_descend_apart _ _ rfl rfl rfl hne, Option.bind_eq_bind, Option.bind_some,
    checkParted_eq_true] at h
  obtain ⟨top_left, top_right, hl, hr, hpads⟩ := h
  cases hl
  cases hr
  exact hpads

theorem is_left_neighbor_one (x : Side × Step) :
    is_left_neighbor iavlInner (opsOf [x]) (opsOf [x]) ≠ some true := by
  intro h
  have hone : opsOf [x] = [opOf x.2] := rfl
  have hsame : descend
      { left := [opOf x.2]
        right := [opOf x.2]
        opt_top_left := some (opOf x.2)
        opt_top_right := some (opOf x.2)
        is_break := false } = some (descentAt [x] [x]) := by
    simp [descend, descentAt, remaining, list.«at», opsOf]
  rw [is_left_neighbor_eq, hone, slice_singleton] at h
  have hrange : List.range [opOf x.2].length = [0] := rfl
  rw [hrange, List.foldlM_cons, List.getLast?_singleton, hsame] at h
  have h : checkParted (descentAt [x] [x]) = some true := h
  obtain ⟨top_left, top_right, hl, hr, hpl, hpr, -⟩ := checkParted_eq_true.mp h
  cases hl
  cases hr
  exact hpl.not_right hpr

/-! ## Neighbours in a tree -/

section Honest

variable [Builtins]

/-- A step of a way down in an IAVL tree. -/
def IavlTaken (x : Side × Step) : Prop :=
  ∃ b other, other.length = 32 ∧ x.2 = iavlLayout.beside b x.1 other

theorem taken_of_path {t : Tree IavlLeaf IavlInner} {a : IavlLeaf} {p : Path}
    (h : (a, p) ∈ t.paths iavlLayout) : ∀ x ∈ p, IavlTaken x := by
  intro x hx
  obtain ⟨b, other, hstep⟩ := Tree.step_of_path h hx
  exact ⟨b, _, other.length_digest, hstep⟩

namespace IavlTaken

variable {x y : Side × Step}

theorem length_after (h : IavlTaken x) :
    x.2.after.length = match x.1 with | .left => 33 | .right => 0 := by
  obtain ⟨b, other, hother, hstep⟩ := h
  rw [hstep]
  cases x.1 with
  | left => simp [iavlLayout, hother]
  | right => rfl

theorem le_before (h : IavlTaken x) :
    (match x.1 with | .left => 4 | .right => 37) ≤ x.2.before.length := by
  obtain ⟨b, other, hother, hstep⟩ := h
  have hheader := three_le_header b
  rw [hstep]
  cases x.1 with
  | left =>
    simp only [iavlLayout, List.length_append, List.length_singleton]
    omega
  | right =>
    simp only [iavlLayout, List.length_append, List.length_cons, List.length_nil, hother]
    omega

/-- The step tells the side. -/
theorem eq_of_step (hx : IavlTaken x) (hy : IavlTaken y) (h : x.2 = y.2) : x = y := by
  have hax := hx.length_after
  have hay := hy.length_after
  obtain ⟨side, s⟩ := x
  obtain ⟨side', s'⟩ := y
  obtain rfl : s = s' := h
  cases side <;> cases side' <;> simp_all

theorem padsLeft (h : IavlTaken x) :
    PadsLeft (opOf x.2) ↔ x.1 = .left ∧ x.2.before.length ≤ 12 := by
  have hafter := h.length_after
  have hbefore := h.le_before
  simp only [PadsLeft, opOf]
  cases hside : x.1 <;> simp only [hside] at hafter hbefore <;> simp [hafter, hbefore]

theorem padsRight (h : IavlTaken x) :
    PadsRight (opOf x.2) ↔ x.1 = .right ∧ x.2.before.length ≤ 45 := by
  have hafter := h.length_after
  have hbefore := h.le_before
  simp only [PadsRight, opOf]
  cases hside : x.1 <;> simp only [hside] at hafter hbefore <;> simp [hafter, hbefore]

end IavlTaken

omit [Builtins] in
/-- From where two paths part, no step has a prefix that is too long for its side. -/
def Narrow : Path → Path → Prop
  | x :: p, y :: q =>
    if x = y then Narrow p q
    else x.2.before.length ≤ 12 ∧ y.2.before.length ≤ 45 ∧
      (∀ z ∈ p, z.2.before.length ≤ 45) ∧ ∀ z ∈ q, z.2.before.length ≤ 12
  | _, _ => True

omit [Builtins] in
instance Narrow.decidable : (p q : Path) → Decidable (Narrow p q)
  | x :: p, y :: q =>
    have := Narrow.decidable p q
    inferInstanceAs (Decidable (if x = y then Narrow p q else _ ∧ _ ∧ _ ∧ _))
  | [], _ => isTrue trivial
  | _ :: _, [] => isTrue trivial

omit [Builtins] in
theorem mem_opsOf {p : Path} {P : InnerOp → Prop} :
    (∀ op ∈ opsOf p, P op) ↔ ∀ z ∈ p, P (opOf z.2) := by
  simp only [opsOf, List.mem_reverse, List.mem_map, forall_exists_index, and_imp,
    forall_apply_eq_imp_iff₂]

theorem partsWell_eq_true {p q : Path} (hp : ∀ x ∈ p, IavlTaken x) (hq : ∀ x ∈ q, IavlTaken x) :
    partsWell p q = some true ↔ Adjacent p q ∧ Narrow p q := by
  induction p generalizing q with
  | nil => simp [partsWell, Adjacent]
  | cons x p ih =>
    rcases q with _ | ⟨y, q⟩
    · simp [partsWell, Adjacent]
    obtain ⟨hx, hbelow⟩ := List.forall_mem_cons.mp hp
    obtain ⟨hy, hbelow'⟩ := List.forall_mem_cons.mp hq
    rw [partsWell, Narrow, Adjacent]
    by_cases hsame : x.2 = y.2
    · obtain rfl := hx.eq_of_step hy hsame
      rw [if_pos rfl, if_pos rfl, ih hbelow hbelow']
      constructor
      · rintro ⟨hadj, hnarrow⟩
        exact ⟨.inl ⟨rfl, hadj⟩, hnarrow⟩
      · rintro ⟨⟨-, hadj⟩ | ⟨hleft, hright, -⟩, hnarrow⟩
        · exact ⟨hadj, hnarrow⟩
        · rw [hleft] at hright
          cases hright
    · have hne : x ≠ y := fun heq => hsame (congrArg Prod.snd heq)
      have hrights : ((∀ z ∈ p, PadsRight (opOf z.2)) ↔
          ∀ z ∈ p, z.1 = .right ∧ z.2.before.length ≤ 45) :=
        forall₂_congr fun z hz => (hbelow z hz).padsRight
      have hlefts : ((∀ z ∈ q, PadsLeft (opOf z.2)) ↔
          ∀ z ∈ q, z.1 = .left ∧ z.2.before.length ≤ 12) :=
        forall₂_congr fun z hz => (hbelow' z hz).padsLeft
      rw [if_neg hsame, if_neg hne, and_accepts, and_accepts, is_left_step_iavl,
        is_right_most_iavl, is_left_most_iavl, mem_opsOf, mem_opsOf, hrights, hlefts,
        hx.padsLeft, hy.padsRight]
      constructor
      · rintro ⟨⟨⟨hleft, hx12⟩, hright, hy45⟩, hrights, hlefts⟩
        exact ⟨.inr ⟨hleft, hright, fun z hz => (hrights z hz).1, fun z hz => (hlefts z hz).1⟩,
          hx12, hy45, fun z hz => (hrights z hz).2, fun z hz => (hlefts z hz).2⟩
      · rintro ⟨⟨heq, -⟩ | ⟨hleft, hright, hrights, hlefts⟩, hx12, hy45, hp45, hq12⟩
        · exact absurd heq hne
        · exact ⟨⟨⟨hleft, hx12⟩, hright, hy45⟩, fun z hz => ⟨hrights z hz, hp45 z hz⟩,
            fun z hz => ⟨hlefts z hz, hq12 z hz⟩⟩

/-- No way down of fewer than two steps is taken for a neighbour. -/
theorem is_left_neighbor_short {t : Tree IavlLeaf IavlInner} {a b : IavlLeaf} {p q : Path}
    (hp : (a, p) ∈ t.paths iavlLayout) (hq : (b, q) ∈ t.paths iavlLayout)
    (h : is_left_neighbor iavlInner (opsOf p) (opsOf q) = some true) :
    2 ≤ p.length ∧ 2 ≤ q.length := by
  rcases p with _ | ⟨x, p⟩
  · -- there is no operation at the top
    cases h
  rcases q with _ | ⟨y, q⟩
  · cases Tree.path_not_longer hq hp
  have hx := taken_of_path hp x List.mem_cons_self
  have hy := taken_of_path hq y List.mem_cons_self
  by_cases hsame : x.2 = y.2
  · obtain rfl := hx.eq_of_step hy hsame
    rcases p with _ | ⟨x', p⟩ <;> rcases q with _ | ⟨y', q⟩
    · exact absurd h (is_left_neighbor_one x)
    · cases Tree.path_not_longer hp hq
    · cases Tree.path_not_longer hq hp
    · simp
  · obtain ⟨hleft, hright, hrights, hlefts⟩ := is_left_neighbor_parted hsame h
    rcases p with _ | ⟨x', p⟩
    · exact absurd (hrights (opOf x.2) List.mem_cons_self) hleft.not_right
    rcases q with _ | ⟨y', q⟩
    · exact absurd hright (hlefts (opOf y.2) List.mem_cons_self).not_right
    simp

/-- Which ways down in a tree are taken for neighbours. -/
theorem is_left_neighbor_iff {t : Tree IavlLeaf IavlInner} {a b : IavlLeaf} {p q : Path}
    (hp : (a, p) ∈ t.paths iavlLayout) (hq : (b, q) ∈ t.paths iavlLayout) :
    is_left_neighbor iavlInner (opsOf p) (opsOf q) = some true ↔
      (2 ≤ p.length ∧ 2 ≤ q.length) ∧ Next (t.paths iavlLayout) (a, p) (b, q) ∧ Narrow p q := by
  have hadjacent : Next (t.paths iavlLayout) (a, p) (b, q) ↔ Adjacent p q := by
    rw [Tree.next_paths]
    exact ⟨fun h => h.2.2, fun h => ⟨hp, hq, h⟩⟩
  rw [hadjacent]
  constructor
  · intro h
    obtain ⟨hlong, hlong'⟩ := is_left_neighbor_short hp hq h
    rw [is_left_neighbor_long hlong hlong',
      partsWell_eq_true (taken_of_path hp) (taken_of_path hq)] at h
    exact ⟨⟨hlong, hlong'⟩, h⟩
  · rintro ⟨⟨hlong, hlong'⟩, h⟩
    rw [is_left_neighbor_long hlong hlong',
      partsWell_eq_true (taken_of_path hp) (taken_of_path hq)]
    exact h

end Honest

end cardano_ibc
