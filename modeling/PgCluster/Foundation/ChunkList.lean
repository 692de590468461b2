import Mathlib.Data.List.TakeDrop

/-! A place in a list of non-empty chunks: what is left from it, and how far it can move. -/

namespace Foundation

/-- An offset into the first chunk. Behind the last chunk the offset is zero. -/
structure ChunkPlace (Item : Type*) where
  list : List (List Item)
  offset : Nat
  filled : ∀ data ∈ list, 0 < data.length
  inside : ∀ data ∈ list.head?, offset < data.length
  reset : list = [] → offset = 0

namespace ChunkPlace

variable {Item : Type*}

/-- What is left from an offset into the first of the chunks. -/
def left : List (List Item) → Nat → List Item
  | [], _ => []
  | data :: rest, offset => data.drop offset ++ rest.flatten

def remaining (place : ChunkPlace Item) : List Item := left place.list place.offset

def empty : ChunkPlace Item where
  list := []
  offset := 0
  filled _ member := absurd member List.not_mem_nil
  inside _ head := by contradiction
  reset _ := rfl

@[simp] theorem left_nil (offset : Nat) : left ([] : List (List Item)) offset = [] := rfl

theorem left_zero (list : List (List Item)) : left list 0 = list.flatten := by
  cases list with
  | nil => rfl
  | cons data rest => simp [left]

@[simp] theorem empty_remaining : (empty : ChunkPlace Item).remaining = [] := rfl

/-- Nothing is left exactly behind the last chunk. -/
theorem remaining_eq_nil_iff (place : ChunkPlace Item)
    : place.remaining = [] ↔ place.list = [] := by
  obtain ⟨list, offset, filled, inside, reset⟩ := place
  cases list with
  | nil => simp [remaining]
  | cons data rest =>
      have less := inside data rfl
      simp only [remaining, left, List.append_eq_nil_iff, List.drop_eq_nil_iff, reduceCtorEq,
        iff_false]
      omega

theorem left_append {list : List (List Item)} (some : list ≠ []) (offset : Nat)
    (data : List Item)
    : left (list ++ [data]) offset = left list offset ++ data := by
  cases list with
  | nil => contradiction
  | cons first rest => simp [left]

end ChunkPlace

end Foundation
