import Mathlib.Data.Finset.Card

/-! Strict majorities of a finite membership. -/

namespace Foundation

/-- More than half of `whole` belongs to `part`. -/
def Majority (part whole : Nat) : Prop := whole < 2 * part

instance (part whole : Nat) : Decidable (Majority part whole) :=
  inferInstanceAs (Decidable (_ < _))

/-- Losing some members leaves a majority exactly when they are fewer than half. -/
theorem majority_sdiff_iff {α : Type*} [DecidableEq α] {whole lost : Finset α}
    (included : lost ⊆ whole)
    : Majority (whole \ lost).card whole.card ↔ 2 * lost.card < whole.card := by
  have count := Finset.card_sdiff_add_card_eq_card included
  unfold Majority
  omega

end Foundation
