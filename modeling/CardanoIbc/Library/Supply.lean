import Mathlib.Algebra.BigOperators.Group.List.Basic
import Mathlib.Algebra.Order.BigOperators.Group.List
import Mathlib.Tactic.Ring
-- How much of something a list of holders has between them, where each holder has some
-- amount that is never negative.

namespace supply

variable {α : Type}

/-- What the holders have between them. -/
def total (q : α → Int) (xs : List α) : Int := (xs.map q).sum

@[simp] theorem total_nil (q : α → Int) : total q [] = 0 := rfl

@[simp] theorem total_cons (q : α → Int) (x : α) (xs : List α) :
    total q (x :: xs) = q x + total q xs := by simp [total]

@[simp] theorem total_append (q : α → Int) (xs ys : List α) :
    total q (xs ++ ys) = total q xs + total q ys := by simp [total]

theorem total_perm {q : α → Int} {xs ys : List α} (h : xs.Perm ys) : total q xs = total q ys :=
  (h.map q).sum_eq

/-- Those a test picks and those it leaves have everything between them. -/
theorem total_filter (q : α → Int) (p : α → Bool) (xs : List α) :
    total q (xs.filter p) + total q (xs.filter fun x => !p x) = total q xs := by
  induction xs with
  | nil => rfl
  | cons x xs ih =>
    cases h : p x <;> simp [h] <;> omega

theorem total_nonneg {q : α → Int} {xs : List α} (h : ∀ x ∈ xs, 0 ≤ q x) : 0 ≤ total q xs := by
  induction xs with
  | nil => exact Int.le_refl 0
  | cons x xs ih =>
    have hx := h x List.mem_cons_self
    have hxs := ih fun y hy => h y (List.mem_cons_of_mem x hy)
    rw [total_cons]
    omega

theorem le_total {q : α → Int} {xs : List α} {x : α} (h : ∀ y ∈ xs, 0 ≤ q y) (hx : x ∈ xs) :
    q x ≤ total q xs := by
  induction xs with
  | nil => cases hx
  | cons y ys ih =>
    have hy := h y List.mem_cons_self
    have hys : ∀ z ∈ ys, 0 ≤ q z := fun z hz => h z (List.mem_cons_of_mem y hz)
    rw [total_cons]
    rcases List.mem_cons.mp hx with rfl | hmem
    · have := total_nonneg hys
      omega
    · have := ih hys hmem
      omega

/-- Where nothing is held in all, nobody holds any. -/
theorem eq_zero_of_total {q : α → Int} {xs : List α} {x : α} (h : ∀ y ∈ xs, 0 ≤ q y)
    (ht : total q xs = 0) (hx : x ∈ xs) : q x = 0 := by
  have := le_total h hx
  have := h x hx
  omega

/-- Where one is held in all, it has a holder. -/
theorem exists_holder {q : α → Int} {xs : List α} (ht : 0 < total q xs) :
    ∃ x ∈ xs, 0 < q x := by
  induction xs with
  | nil => simp at ht
  | cons y ys ih =>
    rw [total_cons] at ht
    by_cases hy : 0 < q y
    · exact ⟨y, List.mem_cons_self, hy⟩
    · obtain ⟨x, hx, hq⟩ := ih (by omega)
      exact ⟨x, List.mem_cons_of_mem y hx, hq⟩

/-- Where at most one is held in all, at most one place in the list holds any: what stands
before and after a holder has none. -/
theorem split_at_holder {q : α → Int} {xs : List α} {x : α} (h : ∀ y ∈ xs, 0 ≤ q y)
    (ht : total q xs ≤ 1) (hx : x ∈ xs) (hq : 0 < q x) :
    ∃ before after, xs = before ++ x :: after ∧ (∀ y ∈ before, q y = 0) ∧
      ∀ y ∈ after, q y = 0 := by
  obtain ⟨before, after, rfl⟩ := List.append_of_mem hx
  rw [total_append, total_cons] at ht
  have hb : ∀ y ∈ before, 0 ≤ q y := fun y hy => h y (List.mem_append_left _ hy)
  have ha : ∀ y ∈ after, 0 ≤ q y := fun y hy =>
    h y (List.mem_append_right _ (List.mem_cons_of_mem x hy))
  have := total_nonneg hb
  have := total_nonneg ha
  exact ⟨before, after, rfl, fun y hy => eq_zero_of_total hb (by omega) hy,
    fun y hy => eq_zero_of_total ha (by omega) hy⟩

/-- Where at most one is held in all, two holders are the same one. -/
theorem holder_unique {q : α → Int} {xs : List α} {x y : α} (h : ∀ z ∈ xs, 0 ≤ q z)
    (ht : total q xs ≤ 1) (hx : x ∈ xs) (hy : y ∈ xs) (hqx : 0 < q x) (hqy : 0 < q y) :
    x = y := by
  obtain ⟨before, after, rfl, hb, ha⟩ := split_at_holder h ht hx hqx
  rcases List.mem_append.mp hy with hmem | hmem
  · have := hb y hmem
    omega
  · rcases List.mem_cons.mp hmem with rfl | hmem
    · rfl
    · have := ha y hmem
      omega

end supply
