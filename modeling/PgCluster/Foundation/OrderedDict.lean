import Mathlib.Data.List.Basic
import Mathlib.Data.List.Nodup

/-! A dict in its insertion order: what an assignment leaves in the part that an iteration has
still ahead.
-/

namespace Foundation

variable {Key Value : Type*} [DecidableEq Key]

/-- Assignment to a key: a known key keeps its place. -/
def setItem (items : List (Key × Value)) (key : Key) (value : Value) : List (Key × Value) :=
  if key ∈ items.map Prod.fst then
    items.map (fun item => if item.1 = key then (key, value) else item)
  else
    items ++ [(key, value)]

variable {items : List (Key × Value)}

theorem keys_setItem (items : List (Key × Value)) (key : Key) (value : Value)
    : (setItem items key value).map Prod.fst
      = if key ∈ items.map Prod.fst then
          items.map Prod.fst
        else
          items.map Prod.fst ++ [key] := by
  unfold setItem
  split
  · rw [List.map_map]
    refine List.map_congr_left ?_
    intro item _
    by_cases same : item.1 = key <;> simp [same]
  · simp

/-- Keys stay distinct. -/
theorem nodup_keys_setItem (distinct : (items.map Prod.fst).Nodup) (key : Key)
    (value : Value)
    : ((setItem items key value).map Prod.fst).Nodup := by
  rw [keys_setItem]
  split
  · exact distinct
  · rename_i fresh
    rw [List.nodup_append]
    refine ⟨distinct, by simp, ?_⟩
    intro known member other new
    rw [List.mem_singleton.mp new]
    exact fun same => fresh (same ▸ member)

/-- No assignment shortens the dict. -/
theorem length_le_setItem (items : List (Key × Value)) (key : Key) (value : Value)
    : items.length ≤ (setItem items key value).length := by
  unfold setItem
  split <;> simp

omit [DecidableEq Key] in
/-- A known key that is not before an index has its item behind it. -/
theorem notMem_take_keys_iff (distinct : (items.map Prod.fst).Nodup) {key : Key}
    (present : key ∈ items.map Prod.fst) (index : Nat)
    : key ∉ (items.map Prod.fst).take index ↔ ∃ old, (key, old) ∈ items.drop index := by
  have behind : key ∈ (items.map Prod.fst).drop index
      ↔ ∃ old, (key, old) ∈ items.drop index := by
    rw [← List.map_drop]
    simp only [List.mem_map, Prod.exists, exists_and_right, exists_eq_right]
  have split_ := List.take_append_drop index (items.map Prod.fst)
  rw [← split_, List.nodup_append] at distinct
  rw [← split_, List.mem_append] at present
  rw [← behind]
  constructor
  · intro notBefore
    exact present.resolve_left notBefore
  · intro after before
    exact distinct.2.2 key before key after rfl

/-- Assigning a known key in place replaces its items and keeps the others. -/
theorem mem_map_assign (entries : List (Key × Value)) (key : Key) (value : Value)
    (entry : Key × Value)
    : entry ∈ entries.map (fun item => if item.1 = key then (key, value) else item)
      ↔ entry = (key, value) ∧ (∃ old, (key, old) ∈ entries)
        ∨ entry.1 ≠ key ∧ entry ∈ entries := by
  rw [List.mem_map]
  constructor
  · rintro ⟨⟨name, old⟩, member, image⟩
    by_cases same : name = key
    · rw [if_pos same] at image
      exact .inl ⟨image.symm, old, same ▸ member⟩
    · rw [if_neg same] at image
      rw [← image]
      exact .inr ⟨same, member⟩
  · rintro (⟨rfl, old, member⟩ | ⟨other, member⟩)
    · exact ⟨(key, old), member, if_pos rfl⟩
    · exact ⟨entry, member, if_neg other⟩

/-- Behind an index are the assigned item, unless its key is before it, and the items of the
other keys that were there.
-/
theorem mem_drop_setItem (distinct : (items.map Prod.fst).Nodup) {index : Nat}
    (within : index ≤ items.length) (key : Key) (value : Value) (entry : Key × Value)
    : entry ∈ (setItem items key value).drop index
      ↔ entry = (key, value) ∧ key ∉ (items.map Prod.fst).take index
        ∨ entry.1 ≠ key ∧ entry ∈ items.drop index := by
  unfold setItem
  by_cases present : key ∈ items.map Prod.fst
  · rw [if_pos present, ← List.map_drop, mem_map_assign,
      notMem_take_keys_iff distinct present]
  · have fresh : key ∉ (items.map Prod.fst).take index :=
      fun member => present (List.mem_of_mem_take member)
    rw [if_neg present, List.drop_append_of_le_length within, List.mem_append,
      List.mem_singleton]
    constructor
    · rintro (member | new)
      · refine .inr ⟨?_, member⟩
        intro same
        have listed := List.mem_map_of_mem (f := Prod.fst) (List.mem_of_mem_drop member)
        exact present (same ▸ listed)
      · exact .inl ⟨new, fresh⟩
    · rintro (⟨new, _⟩ | ⟨_, member⟩)
      · exact .inr new
      · exact .inl member

/-- The whole dict behind an assignment. -/
theorem mem_setItem (distinct : (items.map Prod.fst).Nodup) (key : Key) (value : Value)
    (entry : Key × Value)
    : entry ∈ setItem items key value
      ↔ entry = (key, value) ∨ entry.1 ≠ key ∧ entry ∈ items := by
  have behind := mem_drop_setItem distinct (Nat.zero_le _) key value entry
  simpa using behind

end Foundation
