import Mathlib.Data.Finset.Card

/-! Choosing at most one element for each key of a finite labelled set. -/

namespace Foundation

variable {Key Element : Type*} [DecidableEq Element]

/-- A choice is made everywhere and hits exactly the elements when its image is that of the
elements.
-/
theorem choice_image_eq_iff {keys : Finset Key} {elements : Finset Element}
    {choice : Key → Option Element}
    : keys.image choice = elements.image some
      ↔ (∀ key ∈ keys, choice key ≠ none)
        ∧ ∀ element, (∃ key ∈ keys, choice key = some element) ↔ element ∈ elements := by
  rw [Finset.ext_iff, Option.forall]
  simp only [Finset.mem_image, Option.some.injEq, exists_eq_right, reduceCtorEq, and_false,
    exists_false, iff_false, not_exists, not_and, ne_eq]

/-- Choices made for the labels of a finite set hit exactly its elements if and only if
each of them is one, they never coincide, and no label is used twice. Witness: equal
numbers of keys, choices and elements.
-/
theorem choice_exact_iff [DecidableEq Key] {keys : Finset Key} {elements : Finset Element}
    {label : Element → Key} (labels : elements.image label = keys)
    (choice : Key → Option Element)
    : ((∀ key ∈ keys, choice key ≠ none)
        ∧ ∀ element, (∃ key ∈ keys, choice key = some element) ↔ element ∈ elements)
      ↔ (∀ key ∈ keys, ∃ element ∈ elements, choice key = some element)
        ∧ Set.InjOn choice keys
        ∧ Set.InjOn label elements := by
  have fewerLabels : keys.card ≤ elements.card := labels ▸ Finset.card_image_le
  have wrapped : (elements.image some).card = elements.card :=
    Finset.card_image_of_injective _ (Option.some_injective _)
  rw [← choice_image_eq_iff]
  constructor
  · intro equal
    have fewerChoices : elements.card ≤ keys.card := by
      rw [← wrapped, ← equal]
      exact Finset.card_image_le
    have sameCard := Nat.le_antisymm fewerLabels fewerChoices
    refine ⟨?_, ?_, ?_⟩
    · intro key member
      have chosen := Finset.mem_image_of_mem choice member
      rw [equal] at chosen
      obtain ⟨element, inside, same⟩ := Finset.mem_image.mp chosen
      exact ⟨element, inside, same.symm⟩
    · exact Finset.injOn_of_card_image_eq (by rw [equal, wrapped, sameCard])
    · exact Finset.injOn_of_card_image_eq (by rw [labels, sameCard])
  · intro ⟨inside, separate, unique⟩
    have included : keys.image choice ⊆ elements.image some := by
      apply Finset.image_subset_iff.mpr
      intro key member
      obtain ⟨element, isElement, same⟩ := inside key member
      exact Finset.mem_image.mpr ⟨element, isElement, same.symm⟩
    have chosen := Finset.card_image_of_injOn separate
    have labelled := Finset.card_image_of_injOn unique
    rw [labels] at labelled
    exact Finset.eq_of_subset_of_card_le included (by omega)

end Foundation
