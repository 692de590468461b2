import Mathlib.Data.List.DropRight
import Mathlib.Data.List.Infix

/-! Searched texts: the first place of a letter, texts cut at a place or stripped at both
ends, and all matches of a pattern from left to right.
-/

namespace Foundation

/-- The first place of the letter, -1 when there is none. -/
def findLetter (letter : Char) (text : List Char) : Int :=
  if letter ∈ text then text.idxOf letter else -1

/-- The letters before a place; a negative one counts from the end. -/
def sliceTo (stop : Int) (text : List Char) : List Char :=
  if stop < 0 then text.take (text.length + stop).toNat else text.take stop.toNat

/-- Drops the letters of a class at both ends. -/
def strip (dropped : Char → Bool) (text : List Char) : List Char :=
  (text.dropWhile dropped).rdropWhile dropped

/-- The matches of a pattern, from left to right and apart from each other. The pattern says
how long its match at the head of a text is, and matches no empty text; the first letters may
be left of the last match.
-/
def findAll (matchAt : List Char → Option Nat) : Nat → List Char → List (List Char)
  | _, [] => []
  | left + 1, _ :: rest => findAll matchAt left rest
  | 0, letter :: rest =>
      match matchAt (letter :: rest) with
      | some (more + 1) => (letter :: rest.take more) :: findAll matchAt more rest
      | _ => findAll matchAt 0 rest

/-- A delimiter, other letters and the next delimiter. -/
def delimitedAt (delimiter : Char) : List Char → Option Nat
  | [] => none
  | letter :: rest =>
      if letter = delimiter ∧ delimiter ∈ rest then some (rest.idxOf delimiter + 2) else none

-----------------------------------------------------------------------------------------
-- Places
-----------------------------------------------------------------------------------------

theorem findLetter_of_notMem {letter : Char} {text : List Char} (absent : letter ∉ text)
    : findLetter letter text = -1 := if_neg absent

/-- The first place is behind the letters before it. -/
theorem findLetter_append {letter : Char} {front : List Char} (absent : letter ∉ front)
    (rest : List Char)
    : findLetter letter (front ++ letter :: rest) = front.length := by
  simp [findLetter, List.idxOf_append_of_notMem absent]

/-- Up to the letter before a place the text loses one letter more. -/
theorem sliceTo_pred {front : List Char} (nonempty : front ≠ []) (rest : List Char)
    : sliceTo (front.length - 1) (front ++ rest) = front.dropLast := by
  have positive := List.length_pos_of_ne_nil nonempty
  have place : ((front.length : Int) - 1).toNat = front.length - 1 := by omega
  rw [sliceTo, if_neg (by omega), place, List.take_append_of_le_length (by omega),
    List.dropLast_eq_take]

/-- The place -1 is that of the last letter. -/
theorem sliceTo_neg_one (text : List Char) : sliceTo (-1) text = text.dropLast := by
  have place : ((text.length : Int) + -1).toNat = text.length - 1 := by omega
  rw [sliceTo, if_pos (by omega), place, List.dropLast_eq_take]

-----------------------------------------------------------------------------------------
-- Stripped texts
-----------------------------------------------------------------------------------------

/-- Dropped letters behind a text change nothing. -/
theorem strip_append {dropped : Char → Bool} {blanks : List Char}
    (blank : ∀ letter ∈ blanks, dropped letter = true) (text : List Char)
    : strip dropped (text ++ blanks) = strip dropped text := by
  have reversed : ∀ letter ∈ blanks.reverse, dropped letter = true :=
    fun letter member => blank letter (List.mem_reverse.mp member)
  have ends : ∀ front : List Char,
      (front ++ blanks).rdropWhile dropped = front.rdropWhile dropped := by
    intro front
    rw [List.rdropWhile, List.reverse_append, List.dropWhile_append_of_pos reversed,
      List.rdropWhile]
  unfold strip
  rw [List.dropWhile_append]
  split
  · rename_i empty
    rw [List.dropWhile_eq_nil_iff.mpr blank, List.isEmpty_iff.mp empty]
  · exact ends _

/-- A letter outside the class stays at the head. -/
theorem strip_cons {dropped : Char → Bool} {letter : Char} (kept : dropped letter = false)
    (rest : List Char)
    : ∃ others, strip dropped (letter :: rest) = letter :: others := by
  have stays : (letter :: rest).dropWhile dropped = letter :: rest := by
    rw [List.dropWhile_cons_of_neg (by simp [kept])]
  have nonempty : (letter :: rest).rdropWhile dropped ≠ [] := by
    rw [ne_eq, List.rdropWhile_eq_nil_iff]
    intro drops
    simp [drops letter List.mem_cons_self] at kept
  obtain ⟨first, others, split⟩ := List.exists_cons_of_ne_nil nonempty
  have shorter := List.rdropWhile_prefix dropped (letter :: rest)
  rw [split, List.cons_prefix_cons] at shorter
  exact ⟨others, by rw [strip, stays, split, shorter.1]⟩

-----------------------------------------------------------------------------------------
-- Matches
-----------------------------------------------------------------------------------------

/-- The letters left of the last match are passed over, by induction on the text. -/
theorem findAll_left (matchAt : List Char → Option Nat) (left : Nat) (text : List Char)
    : findAll matchAt left text = findAll matchAt 0 (text.drop left) := by
  induction text generalizing left with
  | nil => cases left <;> simp [findAll]
  | cons letter rest ih =>
      cases left with
      | zero => rfl
      | succ left => simpa [findAll] using ih left

/-- A match at the head comes first. -/
theorem findAll_append {matchAt : List Char → Option Nat} {piece : List Char}
    (nonempty : piece ≠ []) (rest : List Char)
    (found : matchAt (piece ++ rest) = some piece.length)
    : findAll matchAt 0 (piece ++ rest) = piece :: findAll matchAt 0 rest := by
  cases piece with
  | nil => exact absurd rfl nonempty
  | cons letter others =>
      rw [List.cons_append, List.length_cons] at found
      rw [List.cons_append, findAll, found]
      simp [findAll_left matchAt others.length]

/-- A letter at which nothing matches is passed over. -/
theorem findAll_cons_of_none {matchAt : List Char → Option Nat} {letter : Char}
    {rest : List Char} (missing : matchAt (letter :: rest) = none)
    : findAll matchAt 0 (letter :: rest) = findAll matchAt 0 rest := by
  rw [findAll, missing]

/-- Letters other than the delimiter are passed over, by induction on them. -/
theorem findAll_delimited_append {delimiter : Char} {front : List Char}
    (absent : delimiter ∉ front) (rest : List Char)
    : findAll (delimitedAt delimiter) 0 (front ++ rest)
      = findAll (delimitedAt delimiter) 0 rest := by
  induction front with
  | nil => rfl
  | cons letter others ih =>
      obtain ⟨other, below⟩ := not_or.mp (List.mem_cons.not.mp absent)
      have missing : delimitedAt delimiter (letter :: (others ++ rest)) = none := by
        simp [delimitedAt, Ne.symm other]
      rw [List.cons_append, findAll_cons_of_none missing, ih below]

theorem findAll_delimited_of_notMem {delimiter : Char} {text : List Char}
    (absent : delimiter ∉ text)
    : findAll (delimitedAt delimiter) 0 text = [] := by
  have passed := findAll_delimited_append absent []
  rwa [List.append_nil] at passed

/-- A delimited piece is found whole. -/
theorem findAll_delimited {delimiter : Char} {inner : List Char} (absent : delimiter ∉ inner)
    (rest : List Char)
    : findAll (delimitedAt delimiter) 0 (delimiter :: inner ++ delimiter :: rest)
      = (delimiter :: inner ++ [delimiter]) :: findAll (delimitedAt delimiter) 0 rest := by
  have found : delimitedAt delimiter ((delimiter :: inner ++ [delimiter]) ++ rest)
      = some (delimiter :: inner ++ [delimiter]).length := by
    simp [delimitedAt, List.idxOf_append_of_notMem absent]
  rw [← findAll_append (by simp) rest found, List.append_assoc]
  rfl

/-- A delimiter without a second one delimits nothing. -/
theorem findAll_delimited_open {delimiter : Char} {inner : List Char}
    (absent : delimiter ∉ inner)
    : findAll (delimitedAt delimiter) 0 (delimiter :: inner) = [] := by
  have missing : delimitedAt delimiter (delimiter :: inner) = none := by
    simp [delimitedAt, absent]
  rw [findAll_cons_of_none missing, findAll_delimited_of_notMem absent]

end Foundation
