import PgCluster.Foundation.BigEndian
import Mathlib.Data.List.Basic

/-! Fields of binary records: texts up to a separator, sized data and counted rows. -/

namespace Foundation

section Separated

variable {Item : Type*} [DecidableEq Item]

/-- What stands before and behind the first separator. -/
def cutAt (separator : Item) : List Item → Option (List Item × List Item)
  | [] => none
  | item :: rest =>
      if item = separator then some ([], rest)
      else (cutAt separator rest).map (fun parts => (item :: parts.1, parts.2))

/-- The parts between separators, of which at most the given number is looked at. -/
def splitAtMost (separator : Item) : Nat → List Item → List (List Item)
  | 0, data => [data]
  | limit + 1, data =>
      match cutAt separator data with
      | none => [data]
      | some (part, rest) => part :: splitAtMost separator limit rest

/-- By induction on what stands in front. -/
theorem cutAt_append {separator : Item} {front : List Item} (absent : separator ∉ front)
    (rest : List Item)
    : cutAt separator (front ++ separator :: rest) = some (front, rest) := by
  induction front with
  | nil => simp [cutAt]
  | cons item front ih =>
      obtain ⟨other, below⟩ := not_or.mp (List.mem_cons.not.mp absent)
      simp [cutAt, Ne.symm other, ih below]

theorem splitAtMost_append {separator : Item} {front : List Item}
    (absent : separator ∉ front) (limit : Nat) (rest : List Item)
    : splitAtMost separator (limit + 1) (front ++ separator :: rest)
      = front :: splitAtMost separator limit rest := by
  rw [splitAtMost, cutAt_append absent]

@[simp] theorem splitAtMost_zero (separator : Item) (data : List Item)
    : splitAtMost separator 0 data = [data] :=
  rfl

/-- Parts that are each ended by the separator are split again, with an empty one behind
the last: by induction on the parts.
-/
theorem splitOn_flatMap {separator : Item} {parts : List (List Item)}
    (absent : ∀ part ∈ parts, separator ∉ part)
    : (parts.flatMap (fun part => part ++ [separator])).splitOn separator = parts ++ [[]] := by
  induction parts with
  | nil => simp
  | cons part rest ih =>
      rw [List.flatMap_cons, List.append_assoc, List.singleton_append,
        List.splitOn_append_cons_self_of_not_mem (absent part List.mem_cons_self),
        ih (fun other member => absent other (List.mem_cons_of_mem _ member))]
      rfl

end Separated

section Rows

variable {Item Row Error : Type*}

/-- So many rows from the front of the data, and what is left of it. -/
def readRows (read : List Item → Except Error (Row × List Item))
    : Nat → List Item → Except Error (List Row × List Item)
  | 0, data => .ok ([], data)
  | count + 1, data =>
      match read data with
      | .error error => .error error
      | .ok (row, rest) =>
          match readRows read count rest with
          | .error error => .error error
          | .ok (rows, left) => .ok (row :: rows, left)

/-- Written rows are read back, by induction on them. -/
theorem readRows_append {read : List Item → Except Error (Row × List Item)}
    {write : Row → Option (List Item)} {rows : List Row}
    (reads
      : ∀ row ∈ rows, ∀ data, write row = some data
          → ∀ more, read (data ++ more) = .ok (row, more))
    {written : List (List Item)} (wrote : rows.mapM write = some written)
    (more : List Item)
    : readRows read rows.length (written.flatten ++ more) = .ok (rows, more) := by
  induction rows generalizing written with
  | nil =>
      obtain rfl : written = [] := by simpa using wrote.symm
      rfl
  | cons row rest ih =>
      simp only [List.mapM_cons, Option.bind_eq_bind, Option.bind_eq_some_iff,
        Option.pure_def, Option.some.injEq] at wrote
      obtain ⟨data, first, later, others, rfl⟩ := wrote
      have read_ := reads row List.mem_cons_self data first (later.flatten ++ more)
      have left := ih (fun other member => reads other (List.mem_cons_of_mem _ member)) others
      rw [List.flatten_cons, List.append_assoc, List.length_cons, readRows, read_]
      simp only [left]

/-- Rows of one width have so many items, by induction on them. -/
theorem length_flatten_of_mapM {write : Row → Option (List Item)} {width : Nat}
    (same : ∀ row data, write row = some data → data.length = width) {rows : List Row}
    {written : List (List Item)} (wrote : rows.mapM write = some written)
    : written.flatten.length = rows.length * width := by
  induction rows generalizing written with
  | nil =>
      obtain rfl : written = [] := by simpa using wrote.symm
      simp
  | cons row rest ih =>
      simp only [List.mapM_cons, Option.bind_eq_bind, Option.bind_eq_some_iff,
        Option.pure_def, Option.some.injEq] at wrote
      obtain ⟨data, first, later, others, rfl⟩ := wrote
      rw [List.flatten_cons, List.length_append, ih others, same row data first,
        List.length_cons, Nat.succ_mul, Nat.add_comm]

end Rows

end Foundation
