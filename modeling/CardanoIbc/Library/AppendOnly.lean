-- Records with entries under keys that grow only above what they have: a new entry comes above a
-- bound, and the bound never falls.
import Mathlib.Logic.Basic

namespace append_only

variable {σ κ α : Type} {has : σ → κ → α → Prop} {above : σ → κ → Prop} {s s' s'' : σ}

/-- Nothing the record has is above its bound. -/
def Bounded (has : σ → κ → α → Prop) (above : σ → κ → Prop) (s : σ) : Prop :=
  ∀ key value, has s key value → ¬ above s key

/-- What the later record has, the earlier one had, or it is above the earlier one's bound. -/
structure Grows (has : σ → κ → α → Prop) (above : σ → κ → Prop) (s s' : σ) : Prop where
  had : ∀ key value, has s' key value → has s key value ∨ above s key
  rises : ∀ key, above s' key → above s key
  bounded : Bounded has above s → Bounded has above s'

namespace Grows

theorem refl (s : σ) : Grows has above s s := ⟨fun _ _ => .inl, fun _ => id, id⟩

theorem trans (h : Grows has above s s') (h' : Grows has above s' s'') :
    Grows has above s s'' where
  had key value hlater := by
    rcases h'.had key value hlater with hbetween | habove
    · exact h.had key value hbetween
    · exact .inr (h.rises key habove)
  rises key habove := h.rises key (h'.rises key habove)
  bounded hs := h'.bounded (h.bounded hs)

/-- Under a key the earlier record has, the later one has the same or nothing. -/
theorem same (h : Grows has above s s') (hs : Bounded has above s) {key : κ} {value value' : α}
    (hearlier : has s key value) (hlater : has s' key value') : has s key value' :=
  (h.had key value' hlater).resolve_right (hs key value hearlier)

end Grows

end append_only
