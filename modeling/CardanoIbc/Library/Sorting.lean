-- A sort that promises an order and nothing about elements that compare equal.
import Mathlib.Data.List.Sort

namespace sort

/-- What a slice may be sorted into: elements that are not told apart by `less` may come in any
order. -/
structure Slice {α : Type} (less : α → α → Bool) where
  run : List α → List α
  perm : ∀ xs, (run xs).Perm xs
  ordered : ∀ xs, (run xs).Pairwise fun a b => less b a = false

/-- The same sort of the elements in the opposite order. -/
def Slice.backwards {α : Type} {less : α → α → Bool} (s : Slice less) : Slice less where
  run xs := s.run xs.reverse
  perm xs := (s.perm xs.reverse).trans xs.reverse_perm
  ordered xs := s.ordered xs.reverse

/-- A sort that gives the elements of one list in a given order. -/
def Slice.giving {α : Type} [DecidableEq α] {less : α → α → Bool} (s : Slice less)
    {list given : List α} (hperm : given.Perm list)
    (hordered : given.Pairwise fun a b => less b a = false) : Slice less where
  run xs := if xs = list then given else s.run xs
  perm xs := by
    split
    · rename_i h
      rw [h]
      exact hperm
    · exact s.perm xs
  ordered xs := by
    split
    · exact hordered
    · exact s.ordered xs

section Keys

variable {α β : Type} [LinearOrder β] {key : α → β}

/-- The order of what is read off the elements. -/
def below (key : α → β) (a b : α) : Bool := decide (key a < key b)

namespace Slice

/-- Elements with the same key stay in the order in which they came. -/
def stable (key : α → β) : Slice (below key) where
  run := List.insertionSort fun a b => key a ≤ key b
  perm := List.perm_insertionSort _
  ordered xs := by
    have : Std.Total fun a b : α => key a ≤ key b := ⟨fun a b => le_total (key a) (key b)⟩
    have : IsTrans α fun a b => key a ≤ key b := ⟨fun _ _ _ => le_trans⟩
    refine (List.pairwise_insertionSort (fun a b => key a ≤ key b) xs).imp ?_
    intro a b hle
    exact decide_eq_false (not_lt.mpr hle)

theorem ordered_key (s : Slice (below key)) (xs : List α) :
    (s.run xs).Pairwise fun a b => key a ≤ key b :=
  (s.ordered xs).imp fun h => not_lt.mp (of_decide_eq_false h)

/-- However ties are broken, the keys come out in the one order there is. -/
theorem map_run (s s' : Slice (below key)) {xs ys : List α} (h : xs.Perm ys) :
    (s.run xs).map key = (s'.run ys).map key := by
  have hperm : ((s.run xs).map key).Perm ((s'.run ys).map key) :=
    (((s.perm xs).trans h).trans (s'.perm ys).symm).map key
  refine hperm.eq_of_pairwise (fun a b _ _ => le_antisymm) ?_ ?_
  · exact List.pairwise_map.mpr (s.ordered_key xs)
  · exact List.pairwise_map.mpr (s'.ordered_key ys)

end Slice

end Keys

end sort
