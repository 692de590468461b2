import Mathlib.Data.List.Infix
import Mathlib.Data.List.Lex
import Mathlib.Data.List.Sort
import Mathlib.Order.Basic
import Mathlib.Data.Char
import PgCluster.Foundation.TextTools

/-! Tables in text form: fields between blanks, sorted lines, columns cut off, and the order
of lines that begin with a key.
-/

namespace Foundation

/-- The blanks that separate the fields of a line. -/
def isBlank (value : Char) : Bool := value = ' ' || value = '\t'

/-- The fields of a line: what stands between runs of blanks. -/
def blankFields (line : List Char) : List (List Char) :=
  (line.splitOnP isBlank).filter (fun field => field ≠ [])

/-- The last of the lines in sorted order. -/
def lastSorted (lines : List (List Char)) : Option (List Char) :=
  (lines.insertionSort (· ≤ ·)).getLast?

/-- All fields of a line but the first; a line without the delimiter is whole. -/
def cutFromSecond (delimiter : Char) (line : List Char) : List Char :=
  if delimiter ∈ line then (line.dropWhile (fun value => !decide (value = delimiter))).tail
  else line

-----------------------------------------------------------------------------------------
-- Lines
-----------------------------------------------------------------------------------------

/-- Lines above a text that is not empty are substituted as they stand. -/
theorem commandOutput_cons (line : List Char) {rest : List (List Char)}
    (nonempty : commandOutput rest ≠ [])
    : commandOutput (line :: rest) = line ++ '\n' :: commandOutput rest := by
  simp only [commandOutput, List.flatMap_cons, List.rdropWhile, List.reverse_append] at *
  rw [List.dropWhile_append]
  simp only [ne_eq, List.reverse_eq_nil_iff] at nonempty
  simp [nonempty]

/-- The substituted text has the lines of the output, by induction on those above the last. -/
theorem splitOn_commandOutput (above : List (List Char)) {last : List Char}
    (nonempty : last ≠ []) (single : ∀ line ∈ above ++ [last], '\n' ∉ line)
    : (commandOutput (above ++ [last])).splitOn '\n' = above ++ [last] := by
  have text : commandOutput (above ++ [last]) ≠ []
      ∧ commandOutput (above ++ [last]) = ['\n'].intercalate (above ++ [last]) := by
    induction above with
    | nil =>
        have whole := commandOutput_single (single last (by simp))
        simp [whole, nonempty]
    | cons line rest ih =>
        obtain ⟨below, same⟩ := ih (fun other member => single other (by simp [member]))
        have whole := commandOutput_cons line below
        refine ⟨by simp [whole], ?_⟩
        rw [List.cons_append, whole, same]
        cases rest <;> simp [List.intercalate]
  rw [text.2, List.splitOn_intercalate _ single (by simp)]

-----------------------------------------------------------------------------------------
-- Fields
-----------------------------------------------------------------------------------------

/-- A blank ahead of a line changes no field. -/
theorem blankFields_blank (line : List Char) : blankFields (' ' :: line) = blankFields line := by
  simp [blankFields, List.splitOnP_cons_eq_if_modifyHead, isBlank]

/-- A run of blanks changes no field, by induction on its length. -/
theorem blankFields_blanks (count : Nat) (line : List Char)
    : blankFields (List.replicate count ' ' ++ line) = blankFields line := by
  induction count with
  | zero => rfl
  | succ count ih => rw [List.replicate_succ, List.cons_append, blankFields_blank, ih]

/-- A word ahead of a blank is the first field. -/
theorem blankFields_word {word : List Char} (nonempty : word ≠ [])
    (solid : ∀ value ∈ word, isBlank value = false) (rest : List Char)
    : blankFields (word ++ ' ' :: rest) = word :: blankFields rest := by
  rw [blankFields, List.splitOnP_append_cons_of_forall_mem solid ' ' rfl rest]
  simp [nonempty, blankFields]

/-- A word at the end of a line is a field as well. -/
theorem blankFields_last {word : List Char} (nonempty : word ≠ [])
    (solid : ∀ value ∈ word, isBlank value = false)
    : blankFields word = [word] := by
  rw [blankFields, List.splitOnP_eq_singleton solid]
  simp [nonempty]

-----------------------------------------------------------------------------------------
-- Sorted lines
-----------------------------------------------------------------------------------------

/-- The last line is one of the lines and none is greater; witness: the sorted list is
ordered pairwise.
-/
theorem lastSorted_spec {lines : List (List Char)} {line : List Char}
    (last : lastSorted lines = some line)
    : line ∈ lines ∧ ∀ other ∈ lines, other ≤ line := by
  obtain ⟨above, sorted⟩ := List.getLast?_eq_some_iff.mp last
  have ordered := List.pairwise_insertionSort (· ≤ ·) lines
  rw [sorted, List.pairwise_append] at ordered
  constructor
  · rw [← List.mem_insertionSort (· ≤ ·), sorted]
    simp
  · intro other member
    rw [← List.mem_insertionSort (· ≤ ·), sorted, List.mem_append, List.mem_singleton] at member
    rcases member with earlier | same
    · exact ordered.2.2 other earlier line (List.mem_singleton_self line)
    · exact same.le

theorem lastSorted_isSome {lines : List (List Char)} (nonempty : lines ≠ [])
    : ∃ line, lastSorted lines = some line := by
  have sorted : lines.insertionSort (· ≤ ·) ≠ [] := by
    intro empty
    have length := congrArg List.length empty
    simp [nonempty] at length
  exact ⟨_, List.getLast?_eq_some_getLast sorted⟩

/-- What stands behind the first delimiter is left. -/
theorem cutFromSecond_append {delimiter : Char} {first rest : List Char}
    (absent : delimiter ∉ first)
    : cutFromSecond delimiter (first ++ delimiter :: rest) = rest := by
  have passed : ∀ value ∈ first, (!decide (value = delimiter)) = true := by
    intro value member
    have other : value ≠ delimiter := fun same => absent (same ▸ member)
    simpa using other
  simp [cutFromSecond, List.dropWhile_append_of_pos passed]

/-- Lines that begin with a key and a separator below all characters of keys are ordered by
the keys first and by the rest behind them, by induction on the key.
-/
theorem append_sep_lt_iff {α : Type*} [LinearOrder α] {separator : α}
    {first second rest other : List α} (above : ∀ value ∈ first, separator < value)
    (secondAbove : ∀ value ∈ second, separator < value)
    : first ++ separator :: rest < second ++ separator :: other
      ↔ first < second ∨ first = second ∧ rest < other := by
  induction first generalizing second with
  | nil =>
      cases second with
      | nil => simp
      | cons head tail =>
          have low := secondAbove head List.mem_cons_self
          simp [List.cons_lt_cons_iff, low]
  | cons head tail ih =>
      have low := above head List.mem_cons_self
      cases second with
      | nil => simp [List.cons_lt_cons_iff, low.not_gt, low.ne']
      | cons next following =>
          have inner := ih (fun value member => above value (List.mem_cons_of_mem _ member))
            (fun value member => secondAbove value (List.mem_cons_of_mem _ member))
          simp only [List.cons_append, List.cons_lt_cons_iff, inner, List.cons.injEq]
          tauto

end Foundation
