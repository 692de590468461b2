import Mathlib.Data.List.Nodup
import Mathlib.Data.List.Dedup

/-! Set filters over template lists: removing repetitions, by a key of their elements or by
the elements themselves, and taking differences.
Results keep the order of first occurrence, and membership never depends on that order.
A difference that goes through sets is listed in an order of its own.
-/

namespace Foundation

variable {α : Type*}

/-- The elements of a list whose keys do not occur before them. -/
def uniqueBy {κ : Type*} [DecidableEq κ] (key : α → κ) : List α → List α
  | [] => []
  | head :: rest => head :: (uniqueBy key rest).filter (fun item => key item ≠ key head)

section Keys

variable {κ : Type*} [DecidableEq κ] (key : α → κ)

theorem uniqueBy_subset (items : List α) : uniqueBy key items ⊆ items := by
  induction items with
  | nil => exact List.Subset.refl _
  | cons head rest ih =>
      exact List.cons_subset_cons head (fun _ kept => ih (List.mem_of_mem_filter kept))

/-- No two elements are left with one key, by list induction. -/
theorem nodup_map_uniqueBy (items : List α) : ((uniqueBy key items).map key).Nodup := by
  induction items with
  | nil => exact List.nodup_nil
  | cons head rest ih =>
      refine List.nodup_cons.mpr ⟨?_, ih.sublist (List.filter_sublist.map key)⟩
      intro repeated
      obtain ⟨item, member, same⟩ := List.mem_map.mp repeated
      simp [same] at member

theorem nodup_uniqueBy (items : List α) : (uniqueBy key items).Nodup :=
  List.Nodup.of_map key (nodup_map_uniqueBy key items)

/-- Every key is left with an element, by list induction. -/
theorem exists_uniqueBy {items : List α} {item : α} (member : item ∈ items)
    : ∃ kept ∈ uniqueBy key items, key kept = key item := by
  induction items with
  | nil => cases member
  | cons head rest ih =>
      by_cases same : key head = key item
      · exact ⟨head, List.mem_cons_self, same⟩
      · have later : item ∈ rest :=
          (List.mem_cons.mp member).resolve_left (fun eq => same (congrArg key eq.symm))
        obtain ⟨kept, inRest, eq⟩ := ih later
        refine ⟨kept, List.mem_cons_of_mem _ (List.mem_filter.mpr ⟨inRest, ?_⟩), eq⟩
        simpa [eq] using Ne.symm same

/-- Nothing is dropped but repetitions exactly when different elements have different keys.
Witness: of two elements with one key at most one is left.
-/
theorem subset_uniqueBy_iff (items : List α)
    : items ⊆ uniqueBy key items
      ↔ ∀ left ∈ items, ∀ right ∈ items, key left = key right → left = right := by
  constructor
  · intro all left inLeft right inRight same
    exact List.inj_on_of_nodup_map (nodup_map_uniqueBy key items) (all inLeft) (all inRight)
      same
  · intro apart item member
    obtain ⟨kept, inUnique, same⟩ := exists_uniqueBy key member
    obtain rfl := apart kept (uniqueBy_subset key items inUnique) item member same
    exact inUnique

end Keys

variable [DecidableEq α]

/-- The elements of a list without their later repetitions. -/
def unique (items : List α) : List α := uniqueBy id items

/-- The elements of the first list that are absent from the second, without repetitions and
in the order of the first list.
-/
def difference (left right : List α) : List α :=
  unique (left.filter (· ∉ right))

/-- Dropping repetitions preserves membership, since an element is its own key. -/
@[simp] theorem mem_unique {items : List α} {item : α}
    : item ∈ unique items ↔ item ∈ items := by
  refine ⟨fun member => uniqueBy_subset id items member, fun member => ?_⟩
  exact (subset_uniqueBy_iff id items).mpr (fun _ _ _ _ same => same) member

/-- A difference holds the left elements outside the right list; witness: both filters. -/
@[simp] theorem mem_difference {left right : List α} {item : α}
    : item ∈ difference left right ↔ item ∈ left ∧ item ∉ right := by
  simp [difference]

/-- Without repetitions nothing is dropped, by list induction. -/
theorem unique_of_nodup {items : List α} (distinct : items.Nodup) : unique items = items := by
  unfold unique
  induction items with
  | nil => rfl
  | cons head rest ih =>
      obtain ⟨fresh, distinct⟩ := List.nodup_cons.mp distinct
      rw [uniqueBy, ih distinct]
      congr 1
      apply List.filter_eq_self.mpr
      intro item member
      exact decide_eq_true (fun same => fresh (id_eq head ▸ same ▸ member))

/-- A difference from which nothing is taken is the left list. -/
theorem difference_of_disjoint {left right : List α} (distinct : left.Nodup)
    (apart : ∀ item ∈ left, item ∉ right)
    : difference left right = left := by
  rw [difference, List.filter_eq_self.mpr (by simpa using apart), unique_of_nodup distinct]

/-- An order in which sets are listed. -/
structure SetOrder (α : Type*) where
  list : List α → List α
  perm : ∀ items, (list items).Perm items

/-- The order of the given list. -/
def SetOrder.kept : SetOrder α := ⟨id, List.Perm.refl⟩

/-- The given order, but for one element that comes first. -/
def SetOrder.inFront (item : α) : SetOrder α where
  list items := if item ∈ items then item :: items.erase item else items
  perm items := by
    split
    · next member => exact (List.perm_cons_erase member).symm
    · exact List.Perm.refl items

/-- The same elements in an order of their own. -/
def differenceIn (order : SetOrder α) (left right : List α) : List α :=
  order.list (difference left right)

@[simp] theorem mem_differenceIn {order : SetOrder α} {left right : List α} {item : α}
    : item ∈ differenceIn order left right ↔ item ∈ left ∧ item ∉ right := by
  rw [differenceIn, (order.perm _).mem_iff, mem_difference]

theorem differenceIn_eq_nil_iff {order : SetOrder α} {left right : List α}
    : differenceIn order left right = [] ↔ ∀ item ∈ left, item ∈ right := by
  simp [List.eq_nil_iff_forall_not_mem]

/-- Every element of a list comes first in some order of it. -/
theorem head?_inFront {items : List α} {item : α} (member : item ∈ items)
    : ((SetOrder.inFront item).list items).head? = some item := by
  simp [SetOrder.inFront, member]

end Foundation
