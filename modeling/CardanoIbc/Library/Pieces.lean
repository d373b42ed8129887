-- Texts taken apart: what is left of a text without the characters of a kind at its two ends, and
-- its pieces between separators, as characters and as the bytes they are written in.
import CardanoIbc.Library.Text
import Mathlib.Data.List.DropRight

namespace text

variable {α : Type}

/-! ## The two ends -/

/-- What is left without the elements of a kind at both ends. -/
def strip (p : α → Bool) (xs : List α) : List α := (xs.dropWhile p).rdropWhile p

variable {p q : α → Bool} {a b m xs : List α}

/-! ## Pieces -/

theorem notMem_of_mem_splitOn [DecidableEq α] {sep : α} {part : List α}
    (h : part ∈ xs.splitOn sep) : sep ∉ part := by
  induction xs generalizing part with
  | nil =>
    rw [List.splitOn_nil, List.mem_singleton] at h
    subst h
    exact List.not_mem_nil
  | cons x xs ih =>
    rw [List.splitOn_cons_eq_if_modifyHead] at h
    split at h
    · rcases List.mem_cons.mp h with rfl | h
      · exact List.not_mem_nil
      · exact ih h
    · rename_i hne
      cases hparts : xs.splitOn sep with
      | nil => exact absurd hparts (List.splitOn_ne_nil sep xs)
      | cons first rest =>
        rw [hparts, List.modifyHead_cons] at h
        rcases List.mem_cons.mp h with rfl | h
        · have := ih (hparts ▸ List.mem_cons_self)
          simp only [List.mem_cons, not_or]
          exact ⟨fun heq => hne (by simp [heq]), this⟩
        · exact ih (hparts ▸ List.mem_cons_of_mem first h)

/-- Two rows of pieces joined, and the joint between them. -/
theorem intercalate_append {sep : List α} {parts parts' : List (List α)} (h : parts ≠ [])
    (h' : parts' ≠ []) : sep.intercalate (parts ++ parts') =
      sep.intercalate parts ++ sep ++ sep.intercalate parts' := by
  induction parts with
  | nil => exact absurd rfl h
  | cons x parts ih =>
    cases parts with
    | nil =>
      obtain ⟨y, rest, rfl⟩ := List.exists_cons_of_ne_nil h'
      rw [List.singleton_append, List.intercalate_cons_cons, List.intercalate_singleton]
    | cons y parts =>
      have hnext := ih (List.cons_ne_nil y parts)
      rw [List.cons_append] at hnext ⊢
      rw [List.cons_append, List.intercalate_cons_cons, hnext, List.intercalate_cons_cons]
      simp only [List.append_assoc]

end text
