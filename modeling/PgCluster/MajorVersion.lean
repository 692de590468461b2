import PgCluster.Foundation.Numerals

/-! The variable major_version: what the installing roles accept, and the password method that
the templates choose for it by comparing it with texts.
-/

namespace PgCluster

open Foundation

/-- A value that the validation can accept. -/
inductive MajorVersion where
  | integer (number : Int)
  | text (characters : List Char)
deriving DecidableEq, Repr

/-- The text that `^[0-9]+$` has to match: `$` stands also ahead of a line break at the end. -/
def matchedLine (text : List Char) : List Char :=
  if text.getLast? = some '\n' then text.dropLast else text

/-- The method that the servers are to use. -/
def methodFor (number : Int) : String := if number ≤ 13 then "md5" else "scram-sha-256"

namespace MajorVersion

/-- The filter `string`. -/
def string : MajorVersion → List Char
  | .integer number => (toString number).toList
  | .text characters => characters

/-- `(major_version | string) is match('^[0-9]+$')` -/
def Accepted (version : MajorVersion) : Prop :=
  matchedLine version.string ≠ [] ∧ IsNumeral (matchedLine version.string)

instance (version : MajorVersion) : Decidable version.Accepted :=
  inferInstanceAs (Decidable (_ ∧ _))

/-- The version as a number. -/
def number : MajorVersion → Int
  | .integer number => number
  | .text characters => numeralValue (matchedLine characters)

/-- `<=` with a text, which raises a TypeError for an integer. -/
def atMost (bound : List Char) : MajorVersion → Option Bool
  | .integer _ => none
  | .text characters => some (decide (¬ bound < characters))

/-- `>=` with a text, which raises a TypeError for an integer. -/
def atLeast (bound : List Char) : MajorVersion → Option Bool
  | .integer _ => none
  | .text characters => some (decide (¬ characters < bound))

/-- The conditional that the templates have for the method. -/
def method (version : MajorVersion) : Option String := do
  if ← version.atMost ['1', '3'] then
    some "md5"
  else if ← version.atLeast ['1', '4'] then
    some "scram-sha-256"
  else
    some ""

/-- A text, for which the order of its first digits decides: these are at least 14, or the
first one is at most 1 and the whole number at most 13.
-/
def DecidedByDigits : MajorVersion → Prop
  | .integer _ => False
  | .text characters =>
      let digits := matchedLine characters
      14 ≤ numeralValue (digits.take 2)
      ∨ numeralValue (digits.take 1) ≤ 1 ∧ numeralValue digits ≤ 13
        ∧ characters ≠ ['1', '3', '\n']

instance : (version : MajorVersion) → Decidable version.DecidedByDigits
  | .integer _ => inferInstanceAs (Decidable False)
  | .text _ => inferInstanceAs (Decidable (_ ∨ _))

-----------------------------------------------------------------------------------------
-- The comparisons
-----------------------------------------------------------------------------------------

/-- Only a line break stands behind the digits. -/
theorem exists_ending (characters : List Char)
    : ∃ ending, characters = matchedLine characters ++ ending
        ∧ (ending = [] ∨ ending = ['\n']) := by
  unfold matchedLine
  split
  · rename_i last
    exact ⟨['\n'], (List.dropLast_append_getLast? '\n' last).symm, .inr rfl⟩
  · exact ⟨[], by simp, .inl rfl⟩

theorem method_text (characters : List Char)
    : (text characters).method
      = some (if ¬ ['1', '3'] < characters then "md5"
          else if ¬ characters < ['1', '4'] then "scram-sha-256"
          else "") := by
  simp only [method, atMost, atLeast, Option.bind_eq_bind, Option.bind_some, decide_eq_true_eq]
  split
  · rfl
  · split <;> rfl

/-- Two digits are compared like their number; behind 13 any further character counts. -/
theorem method_of_two {front : List Char} (two : front.length = 2) (numeral : IsNumeral front)
    (behind : List Char)
    : (text (front ++ behind)).method
      = some (if numeralValue front < 13 ∨ numeralValue front = 13 ∧ behind = [] then "md5"
          else if 14 ≤ numeralValue front then "scram-sha-256"
          else "") := by
  have thirteen : ¬ ['1', '3'] < front ++ behind
      ↔ numeralValue front < 13 ∨ numeralValue front = 13 ∧ behind = [] := by
    have length : ['1', '3'].length = front.length := two.symm
    have value : numeralValue ['1', '3'] = 13 := by decide
    rw [lt_append_iff length, numeral_lt_iff length (by decide) numeral,
      numeral_eq_iff length (by decide) numeral, value]
    by_cases last : behind = []
    · simp only [last, ne_eq, not_true_eq_false, and_false, or_false, and_true]
      omega
    · simp only [last, ne_eq, not_false_eq_true, and_true, and_false, or_false]
      omega
  have fourteen : ¬ front ++ behind < ['1', '4'] ↔ 14 ≤ numeralValue front := by
    have length : front.length = ['1', '4'].length := two
    have value : numeralValue ['1', '4'] = 14 := by decide
    rw [append_lt_iff length.symm, numeral_lt_iff length numeral (by decide), value, not_lt]
  rw [method_text]
  simp only [thirteen, fourteen]

/-- A single digit above 1 is behind both texts. -/
theorem method_of_one {digit : Char} (isDigit : digit.isDigit = true) {ending : List Char}
    (ends : ending = [] ∨ ending = ['\n'])
    : (text (digit :: ending)).method
      = some (if numeralValue [digit] ≤ 1 then "md5" else "scram-sha-256") := by
  have numeral : IsNumeral [digit] := by simpa [IsNumeral] using isDigit
  have one : ['1'] < [digit] ↔ 1 < numeralValue [digit] :=
    numeral_lt_iff rfl (by decide) numeral
  have ahead : ¬ ['3'] < ending ∧ ending < ['4'] := by
    rcases ends with rfl | rfl <;> decide
  have thirteen : ['1', '3'] < digit :: ending ↔ ['1'] < [digit] := by
    simp [List.cons_lt_cons_iff, ahead.1]
  have fourteen : digit :: ending < ['1', '4'] ↔ ¬ ['1'] < [digit] := by
    simp only [List.cons_lt_cons_iff, ahead.2, and_true, lt_irrefl, and_false, or_false, not_lt]
    exact le_iff_lt_or_eq.symm
  rw [method_text]
  simp only [thirteen, fourteen, one, not_lt, not_le]
  split
  · rfl
  · rename_i more
    rw [if_pos (not_le.mp more)]

theorem method_integer (number : Int) : (integer number).method = none := rfl

theorem methodFor_eq_md5_iff (number : Int) : methodFor number = "md5" ↔ number ≤ 13 := by
  unfold methodFor
  split <;> simp_all

theorem methodFor_eq_scram_iff (number : Int)
    : methodFor number = "scram-sha-256" ↔ 14 ≤ number := by
  unfold methodFor
  split
  · exact iff_of_false (by decide) (by omega)
  · exact iff_of_true rfl (by omega)

theorem methodFor_ne_empty (number : Int) : methodFor number ≠ "" := by
  unfold methodFor
  split <;> decide

/-- A single digit gets its method if it is at most 1. -/
theorem method_of_one_iff {digit : Char} (isDigit : digit.isDigit = true)
    {ending : List Char} (ends : ending = [] ∨ ending = ['\n'])
    : (text (digit :: ending)).method = some (methodFor (numeralValue [digit]))
      ↔ numeralValue [digit] ≤ 1 := by
  have bound : numeralValue [digit] < 10 :=
    numeralValue_lt (by simpa [IsNumeral] using isDigit)
  have md5 : methodFor (numeralValue [digit]) = "md5" := by
    rw [methodFor_eq_md5_iff]
    omega
  rw [method_of_one isDigit ends, md5]
  split
  · rename_i small
    exact iff_of_true rfl small
  · rename_i great
    exact iff_of_false (by decide) great

/-- Two and more digits get the method of their number if the first two are at least 14, or if
they are all of it, up to 13 and with nothing behind 13; by cases on the first two.
-/
theorem method_of_two_iff {front : List Char} (two : front.length = 2)
    (numeral : IsNumeral front) (rest ending : List Char)
    : (text (front ++ (rest ++ ending))).method
        = some (methodFor (numeralValue (front ++ rest)))
      ↔ 14 ≤ numeralValue front
        ∨ numeralValue (front ++ rest) ≤ 13
          ∧ ¬ (numeralValue front = 13 ∧ rest ++ ending ≠ []) := by
  have grows := numeralValue_front_le front rest
  rw [method_of_two two numeral]
  rcases lt_trichotomy (numeralValue front) 13 with less | equal | greater
  · rw [if_pos (.inl less), Option.some_inj, eq_comm, methodFor_eq_md5_iff]
    omega
  · by_cases last : rest ++ ending = []
    · obtain ⟨restNil, endingNil⟩ := List.append_eq_nil_iff.mp last
      rw [if_pos (.inr ⟨equal, last⟩), Option.some_inj, eq_comm, methodFor_eq_md5_iff]
      simp [restNil, endingNil, equal]
    · rw [if_neg (by simp [equal, last]), if_neg (by omega), Option.some_inj]
      refine iff_of_false (methodFor_ne_empty _).symm ?_
      rintro (many | ⟨-, nothing⟩)
      · omega
      · exact nothing ⟨equal, last⟩
  · rw [if_neg (by omega), if_pos (by omega), Option.some_inj, eq_comm,
      methodFor_eq_scram_iff]
    exact iff_of_true (by omega) (.inl greater)

/-- Of the texts up to 13 only the one with a line break goes on behind 13. -/
theorem behind_thirteen_iff {front rest ending : List Char} (two : front.length = 2)
    (numeral : IsNumeral front) (small : numeralValue (front ++ rest) ≤ 13)
    (ends : ending = [] ∨ ending = ['\n'])
    : numeralValue front = 13 ∧ rest ++ ending ≠ []
      ↔ front ++ (rest ++ ending) = ['1', '3', '\n'] := by
  have thirteen : front = ['1', '3'] ↔ numeralValue front = 13 :=
    numeral_eq_iff two numeral (by decide)
  constructor
  · rintro ⟨value, more⟩
    have restNil : rest = [] := by
      by_contra some_
      have great := ten_mul_front_le front some_
      omega
    subst restNil
    rcases ends with rfl | rfl
    · exact absurd rfl more
    · rw [thirteen.mpr value]
      rfl
  · intro whole
    have shaped : front ++ (rest ++ ending) = ['1', '3'] ++ ['\n'] := whole
    obtain ⟨same, behind⟩ := List.append_inj shaped two
    rw [behind]
    exact ⟨thirteen.mp same, by simp⟩

/-- A single digit gets its method as its number decides. -/
theorem method_of_digit_iff {digit : Char} (numeral : IsNumeral [digit]) {ending : List Char}
    (ends : ending = [] ∨ ending = ['\n'])
    : (text (digit :: ending)).method = some (methodFor (numeralValue [digit]))
      ↔ 14 ≤ numeralValue [digit]
        ∨ numeralValue [digit] ≤ 1 ∧ numeralValue [digit] ≤ 13
          ∧ digit :: ending ≠ ['1', '3', '\n'] := by
  have isDigit := numeral digit List.mem_cons_self
  have bound : numeralValue [digit] < 10 := numeralValue_lt numeral
  have short : digit :: ending ≠ ['1', '3', '\n'] := by
    rcases ends with rfl | rfl <;> simp
  rw [method_of_one_iff isDigit ends]
  simp only [short, ne_eq, not_false_eq_true, and_true]
  omega

/-- Two and more digits get their method as their number and the first ones decide. -/
theorem method_of_digits_iff {first second : Char} {rest ending : List Char}
    (numeral : IsNumeral (first :: second :: rest))
    (ends : ending = [] ∨ ending = ['\n'])
    : (text ([first, second] ++ (rest ++ ending))).method
        = some (methodFor (numeralValue ([first, second] ++ rest)))
      ↔ 14 ≤ numeralValue [first, second]
        ∨ numeralValue [first] ≤ 1 ∧ numeralValue ([first, second] ++ rest) ≤ 13
          ∧ [first, second] ++ (rest ++ ending) ≠ ['1', '3', '\n'] := by
  have front : IsNumeral [first, second] := by
    intro digit member
    have inFront : digit ∈ [first, second] ++ rest := List.mem_append_left _ member
    exact numeral digit inFront
  have tens : numeralValue [first, second] = numeralValue [first] * 10 + numeralValue [second] :=
    numeralValue_append [first] [second]
  have grows := numeralValue_front_le [first, second] rest
  rw [method_of_two_iff rfl front]
  by_cases small : numeralValue ([first, second] ++ rest) ≤ 13
  · rw [behind_thirteen_iff rfl front small ends]
    have firstSmall : numeralValue [first] ≤ 1 := by omega
    simp only [small, firstSmall, true_and, ne_eq]
  · simp only [small, false_and, and_false]

/-- The templates choose the method of the number exactly for a text that its first digits
decide, by cases on the number of digits.
-/
theorem method_eq_iff {version : MajorVersion} (accepted : version.Accepted)
    : version.method = some (methodFor version.number) ↔ version.DecidedByDigits := by
  cases version with
  | integer number => exact iff_of_false (by simp [method_integer]) id
  | text characters =>
      obtain ⟨nonempty, numeral⟩ := accepted
      obtain ⟨ending, whole, ends⟩ := exists_ending characters
      simp only [string] at nonempty numeral
      simp only [DecidedByDigits, number]
      generalize matchedLine characters = digits at *
      subst whole
      match digits, nonempty, numeral with
      | [digit], _, numeral => exact method_of_digit_iff numeral ends
      | first :: second :: rest, _, numeral => exact method_of_digits_iff numeral ends

end MajorVersion

end PgCluster
