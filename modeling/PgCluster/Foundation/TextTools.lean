import Mathlib.Data.List.DropRight

/-! Line-oriented text tools: joined lines, delimited fields and deleted characters. -/

namespace Foundation

/-- The text of a file with the given lines, each ended by a line feed. -/
def unlines : List String → String
  | [] => ""
  | line :: rest => line ++ "\n" ++ unlines rest

/-- Field `index` of a line, counted from one; a line without the delimiter is whole. -/
def cutField (delimiter : Char) (index : Nat) (line : List Char) : List Char :=
  if delimiter ∈ line then ((line.splitOn delimiter)[index - 1]?).getD [] else line

/-- Removes every character of the given class. -/
def deleteChars (deleted : Char → Bool) (line : List Char) : List Char :=
  line.filter (fun value => !deleted value)

/-- The text that the shell substitutes for the output of a command with the given lines:
trailing line feeds are dropped.
-/
def commandOutput (lines : List (List Char)) : List Char :=
  (lines.flatMap (fun line => line ++ ['\n'])).rdropWhile (· = '\n')

/-- Joins the words of an unquoted expansion again: every run of spaces becomes one. -/
def squeezeSpaces : List Char → List Char
  | [] => []
  | value :: rest =>
      if value = ' ' ∧ rest.head? = some ' ' then squeezeSpaces rest
      else value :: squeezeSpaces rest

/-- Common leading lines cancel, by induction on them. -/
theorem unlines_append_inj {shared left right : List String}
    : unlines (shared ++ left) = unlines (shared ++ right)
      ↔ unlines left = unlines right := by
  induction shared with
  | nil => rfl
  | cons line rest ih => simp [unlines, String.append_assoc, ih]

/-- The first field ends before the first delimiter. -/
theorem cutField_one_append {delimiter : Char} {first rest : List Char}
    (absent : delimiter ∉ first)
    : cutField delimiter 1 (first ++ delimiter :: rest) = first := by
  simp [cutField, List.splitOn_append_cons_self_of_not_mem absent]

/-- A text splits at its first delimiter, or has none. -/
theorem splitOn_cases (delimiter : Char) (text : List Char)
    : (delimiter ∉ text)
      ∨ ∃ first rest, delimiter ∉ first ∧ text = first ++ delimiter :: rest := by
  by_cases member : delimiter ∈ text
  · obtain ⟨first, rest, absent, split⟩ := List.eq_append_cons_of_mem member
    exact Or.inr ⟨first, rest, split, absent⟩
  · exact Or.inl member

/-- The text before a delimiter, all of it when there is none. -/
def before (delimiter : Char) (text : List Char) : List Char :=
  text.takeWhile (fun value => !decide (value = delimiter))

theorem notMem_before (delimiter : Char) (text : List Char)
    : delimiter ∉ before delimiter text := by
  intro member
  simpa using List.mem_takeWhile_imp member

theorem mem_of_mem_before {delimiter value : Char} {text : List Char}
    (member : value ∈ before delimiter text)
    : value ∈ text :=
  (List.takeWhile_sublist _).mem member

/-- Nothing is cut off a text without delimiters. -/
theorem before_eq_self {delimiter : Char} {text : List Char} (absent : delimiter ∉ text)
    : before delimiter text = text := by
  apply List.takeWhile_eq_self_iff.mpr
  intro value member
  have other : value ≠ delimiter := fun same => absent (same ▸ member)
  simpa using other

/-- Only the text before the first delimiter is kept. -/
theorem before_append {delimiter : Char} {first rest : List Char}
    (absent : delimiter ∉ first)
    : before delimiter (first ++ delimiter :: rest) = first := by
  have kept : ∀ value ∈ first, (!decide (value = delimiter)) = true := by
    intro value member
    have other : value ≠ delimiter := fun same => absent (same ▸ member)
    simpa using other
  simp [before, List.takeWhile_append_of_pos kept]

/-- The second field is what stands between the first delimiter and the next one. -/
theorem cutField_two_append {delimiter : Char} {first rest : List Char}
    (absent : delimiter ∉ first)
    : cutField delimiter 2 (first ++ delimiter :: rest) = before delimiter rest := by
  have split := List.splitOn_append_cons_self_of_not_mem absent rest
  rcases splitOn_cases delimiter rest with whole | ⟨second, others, free, rfl⟩
  · simp [cutField, split, List.splitOn_eq_singleton whole, before_eq_self whole]
  · simp [cutField, split, List.splitOn_append_cons_self_of_not_mem free,
      before_append free]

@[simp] theorem commandOutput_nil : commandOutput [] = [] := rfl

/-- A single line is substituted as it stands. -/
theorem commandOutput_single {line : List Char} (single : '\n' ∉ line)
    : commandOutput [line] = line := by
  have last : ∀ nonempty : line ≠ [], line.getLast nonempty ≠ '\n' :=
    fun nonempty same => single (same ▸ List.getLast_mem nonempty)
  simp only [commandOutput, List.flatMap_cons, List.flatMap_nil, List.append_nil]
  rw [List.rdropWhile_concat_pos _ _ _ (by simp)]
  exact List.rdropWhile_eq_self_iff.mpr (by simpa using last)

/-- Squeezing keeps every character that occurs, by list induction. -/
@[simp] theorem mem_squeezeSpaces {value : Char} {text : List Char}
    : value ∈ squeezeSpaces text ↔ value ∈ text := by
  induction text with
  | nil => simp [squeezeSpaces]
  | cons head rest ih =>
      unfold squeezeSpaces
      split
      · rename_i doubled
        have again : ' ' ∈ rest := List.mem_of_head? doubled.2
        rw [ih, doubled.1, List.mem_cons]
        exact ⟨Or.inr, fun either => either.elim (fun same => same ▸ again) id⟩
      · simp [ih]

/-- A text without spaces is left alone, by list induction. -/
theorem squeezeSpaces_eq_self {text : List Char} (absent : ' ' ∉ text)
    : squeezeSpaces text = text := by
  induction text with
  | nil => rfl
  | cons head rest ih =>
      obtain ⟨other, below⟩ := not_or.mp (List.mem_cons.not.mp absent)
      simp [squeezeSpaces, Ne.symm other, ih below]

/-- Squeezing reaches a text without spaces from itself only. -/
theorem squeezeSpaces_eq_iff {text squeezed : List Char} (absent : ' ' ∉ squeezed)
    : squeezeSpaces text = squeezed ↔ text = squeezed := by
  refine ⟨?_, ?_⟩
  · intro same
    have none : ' ' ∉ text := by
      rw [← mem_squeezeSpaces, same]
      exact absent
    rw [← squeezeSpaces_eq_self none, same]
  · intro same
    rw [same]
    exact squeezeSpaces_eq_self absent

end Foundation
