import PgCluster.Foundation.Divisions

/-! The function match: masks with ? and *, compared with texts by recursion on both, against
the languages of the masks.
-/

namespace PgCluster.Backend

open Foundation

/-- match, None where its recursion is deeper than allowed. -/
def Mask.match : Nat → List Char → List Char → Option Bool
  | 0, _, _ => none
  | depth + 1, mask, text =>
      if mask.length = 0 ∧ text.length = 0 then
        some true
      else if mask.length > 1 ∧ mask.head? = some '*' ∧ text.length = 0 then
        some false
      else if (mask.length > 1 ∧ mask.head? = some '?')
          ∨ (mask.length ≠ 0 ∧ text.length ≠ 0 ∧ mask.head? = text.head?) then
        Mask.match depth mask.tail text.tail
      else if mask.length ≠ 0 ∧ mask.head? = some '*' then
        match Mask.match depth mask.tail text with
        | some false => Mask.match depth mask text.tail
        | answer => answer
      else
        some false

/-- What a symbol of a mask stands for. -/
def StandsFor (symbol : Char) (piece : List Char) : Prop :=
  if symbol = '?' then ∃ letter, piece = [letter]
  else if symbol = '*' then True
  else piece = [symbol]

def symbolLanguage (symbol : Char) : Language Char := {piece | StandsFor symbol piece}

def Mask.language (mask : List Char) : Language Char := (mask.map symbolLanguage).prod

/-- match is True for the texts of the language, with the recursion that it needs. -/
def Mask.Exact (mask text : List Char) : Prop :=
  Mask.match (mask.length + text.length + 1) mask text = some true
  ↔ text ∈ Mask.language mask

-----------------------------------------------------------------------------------------
-- The divisions that match finds
-----------------------------------------------------------------------------------------

/-- The piece has no * but as its last character. -/
def StarLast (piece : List Char) : Prop := '*' ∉ piece.dropLast

/-- What a symbol takes ahead of others: * takes a piece that ends in the first * of the text
or stops ahead of another character.
-/
def TakesInside (symbol : Char) (piece following : List Char) : Prop :=
  if symbol = '?' then ∃ letter, piece = [letter]
  else if symbol = '*' then
    StarLast piece
    ∧ (piece.getLast? = some '*' ∨ ∃ letter ∈ following.head?, letter ≠ '*')
  else piece = [symbol]

/-- What the last symbol of a mask takes: ? takes itself. -/
def TakesLast (symbol : Char) (piece : List Char) : Prop :=
  if symbol = '*' then StarLast piece else piece = [symbol]

def Takes (symbol : Char) (rest piece following : List Char) : Prop :=
  if rest = [] then TakesLast symbol piece else TakesInside symbol piece following

/-- The text has a division in which every symbol takes a piece in this way. -/
def Mask.Straight (mask text : List Char) : Prop := Divides Takes mask text

/-- The mask ends in a run of ? and a *, and the text ends within the run. -/
def Mask.EndsInRun (mask text : List Char) : Prop :=
  ∃ front run,
    mask = front ++ List.replicate (run + 1) '?' ++ ['*']
    ∧ Divides (fun symbol _ piece following => TakesInside symbol piece following) front text

/-- Every symbol finds a piece, or the text ends too early for match to see it. -/
def Mask.Found (mask text : List Char) : Prop :=
  Mask.Straight mask text ∨ Mask.EndsInRun mask text

theorem Mask.not_endsInRun_nil (text : List Char) : ¬ Mask.EndsInRun [] text := by
  rintro ⟨front, run, ends, -⟩
  simp at ends

theorem Mask.not_endsInRun_singleton (symbol : Char) (text : List Char)
    : ¬ Mask.EndsInRun [symbol] text := by
  rintro ⟨front, run, ends, -⟩
  have length := congrArg List.length ends
  simp only [List.length_singleton, List.length_append, List.length_replicate] at length
  omega

theorem Mask.found_singleton (symbol : Char) (text : List Char)
    : Mask.Found [symbol] text ↔ TakesLast symbol text := by
  simp [Found, Straight, divides_singleton, Takes, not_endsInRun_singleton]

/-- A run of ? and a * is all that ends there. -/
theorem Mask.endsInRun_cons (symbol : Char) (rest text : List Char)
    : Mask.EndsInRun (symbol :: rest) text
      ↔ (∃ piece following,
          piece ++ following = text ∧ TakesInside symbol piece following
          ∧ Mask.EndsInRun rest following)
        ∨ symbol = '?' ∧ text = [] ∧ ∃ run, rest = List.replicate run '?' ++ ['*'] := by
  constructor
  · rintro ⟨front, run, ends, divides⟩
    cases front with
    | nil =>
        obtain ⟨rfl, rfl⟩ := List.cons.inj (show symbol :: rest
          = '?' :: (List.replicate run '?' ++ ['*']) from ends)
        exact .inr ⟨rfl, divides, run, rfl⟩
    | cons first front =>
        obtain ⟨rfl, rfl⟩ := List.cons.inj ends
        obtain ⟨piece, following, joined, takes, later⟩ := divides
        exact .inl ⟨piece, following, joined, takes, front, run, rfl, later⟩
  · rintro (⟨piece, following, joined, takes, front, run, ends, later⟩ | ⟨rfl, rfl, run, rfl⟩)
    · exact ⟨symbol :: front, run, by simp [ends], piece, following, joined, takes, later⟩
    · exact ⟨[], run, rfl, rfl⟩

/-- A symbol ahead of others takes a piece, or the text has ended at a run of ? and a *. -/
theorem Mask.found_cons (symbol : Char) {rest : List Char} (more : rest ≠ [])
    (text : List Char)
    : Mask.Found (symbol :: rest) text
      ↔ (∃ piece following,
          piece ++ following = text ∧ TakesInside symbol piece following
          ∧ Mask.Found rest following)
        ∨ symbol = '?' ∧ text = [] ∧ ∃ run, rest = List.replicate run '?' ++ ['*'] := by
  have straight : Mask.Straight (symbol :: rest) text
      ↔ ∃ piece following,
          piece ++ following = text ∧ TakesInside symbol piece following
          ∧ Mask.Straight rest following := by
    simp only [Straight, Divides, Takes, if_neg more]
  unfold Found
  rw [straight, endsInRun_cons]
  constructor
  · rintro (⟨piece, following, joined, takes, later⟩
      | ⟨piece, following, joined, takes, later⟩ | ended)
    · exact .inl ⟨piece, following, joined, takes, .inl later⟩
    · exact .inl ⟨piece, following, joined, takes, .inr later⟩
    · exact .inr ended
  · rintro (⟨piece, following, joined, takes, later | later⟩ | ended)
    · exact .inl ⟨piece, following, joined, takes, later⟩
    · exact .inr (.inl ⟨piece, following, joined, takes, later⟩)
    · exact .inr (.inr ended)

/-- A text that has ended is found by a run of ? and a * alone, by induction on the mask. -/
theorem Mask.found_ended {rest : List Char} (more : rest ≠ [])
    : Mask.Found rest [] ↔ ∃ run, rest = List.replicate run '?' ++ ['*'] := by
  induction rest with
  | nil => exact (more rfl).elim
  | cons symbol rest ih =>
      by_cases last : rest = []
      · subst last
        rw [found_singleton]
        constructor
        · intro takes
          refine ⟨0, ?_⟩
          by_contra other
          have star : symbol ≠ '*' := fun same => other (by simp [same])
          simp [TakesLast, star] at takes
        · rintro ⟨run, ends⟩
          obtain rfl : run = 0 := by simpa using congrArg List.length ends
          obtain rfl : symbol = '*' := by simpa using ends
          simp [TakesLast, StarLast]
      · rw [found_cons symbol last]
        constructor
        · rintro (⟨piece, following, joined, takes, -⟩ | ⟨rfl, -, run, rfl⟩)
          · obtain ⟨rfl, rfl⟩ := List.append_eq_nil_iff.mp joined
            unfold TakesInside at takes
            split at takes
            · simp at takes
            · split at takes <;> simp at takes
          · exact ⟨run + 1, rfl⟩
        · rintro ⟨run, ends⟩
          cases run with
          | zero => exact (last (List.cons.inj ends).2).elim
          | succ run =>
              obtain ⟨rfl, rfl⟩ := List.cons.inj ends
              exact .inr ⟨rfl, rfl, run, rfl⟩

/-- ? ahead of others takes a character, if there is one. -/
theorem Mask.found_question {rest : List Char} (more : rest ≠ []) (text : List Char)
    : Mask.Found ('?' :: rest) text ↔ Mask.Found rest text.tail := by
  rw [found_cons '?' more]
  cases text with
  | nil =>
      rw [List.tail_nil, found_ended more]
      constructor
      · rintro (⟨piece, following, joined, ⟨letter, rfl⟩, -⟩ | ⟨-, -, ended⟩)
        · simp at joined
        · exact ended
      · exact fun ended => .inr ⟨rfl, rfl, ended⟩
  | cons letter text =>
      constructor
      · rintro (⟨piece, following, joined, ⟨letter', rfl⟩, later⟩ | ⟨-, ended, -⟩)
        · obtain ⟨-, rfl⟩ := List.cons.inj joined
          exact later
        · simp at ended
      · exact fun later => .inl ⟨[letter], text, rfl, ⟨letter, rfl⟩, later⟩

theorem starLast_cons {letter : Char} (other : letter ≠ '*') (piece : List Char)
    : StarLast (letter :: piece) ↔ StarLast piece := by
  cases piece with
  | nil => simp [StarLast]
  | cons next piece => simp [StarLast, other.symm]

theorem starLast_star (piece : List Char) : StarLast ('*' :: piece) ↔ piece = [] := by
  cases piece with
  | nil => simp [StarLast]
  | cons next piece => simp [StarLast]

theorem takesInside_star (piece following : List Char)
    : TakesInside '*' piece following
      ↔ StarLast piece
        ∧ (piece.getLast? = some '*' ∨ ∃ letter ∈ following.head?, letter ≠ '*') := Iff.rfl

/-- A character other than * in front changes nothing for *. -/
theorem takesInside_star_cons {letter : Char} (other : letter ≠ '*')
    {piece : List Char} (following : List Char)
    : TakesInside '*' (letter :: piece) following
      ↔ TakesInside '*' piece following := by
  rw [takesInside_star, takesInside_star, starLast_cons other]
  cases piece with
  | nil => simp [other]
  | cons next piece => simp

/-- A symbol other than ? and * takes itself. -/
theorem takesInside_literal {symbol : Char} (question : symbol ≠ '?') (star : symbol ≠ '*')
    (piece following : List Char)
    : TakesInside symbol piece following ↔ piece = [symbol] := by
  simp [TakesInside, question, star]

@[simp] theorem Mask.found_nil (text : List Char) : Mask.Found [] text ↔ text = [] := by
  simp [Found, Straight, not_endsInRun_nil]

/-- A symbol that is the next character takes it, also the symbol *. -/
theorem Mask.found_same (symbol : Char) (rest text : List Char)
    : Mask.Found (symbol :: rest) (symbol :: text) ↔ Mask.Found rest text := by
  by_cases last : rest = []
  · subst last
    rw [found_singleton, found_nil]
    by_cases star : symbol = '*'
    · subst star
      exact starLast_star text
    · simp [TakesLast, star]
  · by_cases question : symbol = '?'
    · subst question
      exact found_question last ('?' :: text)
    · rw [found_cons symbol last]
      have takes : TakesInside symbol [symbol] text := by
        by_cases star : symbol = '*'
        · subst star
          exact ⟨(starLast_star []).mpr rfl, .inl rfl⟩
        · exact (takesInside_literal question star _ _).mpr rfl
      constructor
      · rintro (⟨piece, following, joined, fits, later⟩ | ⟨same, -⟩)
        · have one : piece = [symbol] := by
            by_cases star : symbol = '*'
            · subst star
              cases piece with
              | nil =>
                  obtain rfl : following = '*' :: text := joined
                  simp [takesInside_star] at fits
              | cons first piece =>
                  obtain ⟨rfl, -⟩ := List.cons.inj joined
                  rw [(starLast_star piece).mp fits.1]
            · exact (takesInside_literal question star _ _).mp fits
          subst one
          obtain ⟨-, rfl⟩ := List.cons.inj joined
          exact later
        · exact (question same).elim
      · exact fun later => .inl ⟨[symbol], text, rfl, takes, later⟩

/-- Ahead of another character * stops or takes it. -/
theorem Mask.found_star {letter : Char} (other : letter ≠ '*') (rest text : List Char)
    : Mask.Found ('*' :: rest) (letter :: text)
      ↔ Mask.Found rest (letter :: text) ∨ Mask.Found ('*' :: rest) text := by
  by_cases last : rest = []
  · subst last
    simp [found_singleton, TakesLast, starLast_cons other]
  · simp only [found_cons '*' last, show ('*' : Char) ≠ '?' by decide, false_and, or_false]
    constructor
    · rintro ⟨piece, following, joined, fits, later⟩
      cases piece with
      | nil => exact .inl (joined ▸ later)
      | cons first piece =>
          obtain ⟨rfl, joins⟩ := List.cons.inj joined
          exact .inr ⟨piece, following, joins, (takesInside_star_cons other _).mp fits, later⟩
    · rintro (stops | ⟨piece, following, joined, fits, later⟩)
      · refine ⟨[], letter :: text, rfl, ?_, stops⟩
        exact ⟨by simp [StarLast], .inr ⟨letter, rfl, other⟩⟩
      · exact ⟨letter :: piece, following, by simp [joined],
          (takesInside_star_cons other _).mpr fits, later⟩

theorem Mask.found_star_ended (rest : List Char) : Mask.Found ('*' :: rest) [] ↔ rest = [] := by
  by_cases last : rest = []
  · simp [last, found_singleton, TakesLast, StarLast]
  · rw [found_ended (by simp)]
    refine ⟨?_, fun none_ => (last none_).elim⟩
    rintro ⟨run, ends⟩
    cases run with
    | zero => exact (List.cons.inj ends).2
    | succ run => exact absurd (List.cons.inj ends).1 (by decide)

/-- Another symbol takes only itself. -/
theorem Mask.not_found {symbol : Char} {rest text : List Char}
    (question : ¬ (rest ≠ [] ∧ symbol = '?')) (star : symbol ≠ '*')
    (other : text.head? ≠ some symbol)
    : ¬ Mask.Found (symbol :: rest) text := by
  by_cases last : rest = []
  · subst last
    rw [found_singleton]
    intro takes
    obtain rfl : text = [symbol] := by simpa [TakesLast, star] using takes
    exact other rfl
  · have literal : symbol ≠ '?' := fun same => question ⟨last, same⟩
    rw [found_cons symbol last]
    rintro (⟨piece, following, joined, takes, -⟩ | ⟨same, -⟩)
    · obtain rfl := (takesInside_literal literal star _ _).mp takes
      exact other (by simp [← joined])
    · exact literal same

-----------------------------------------------------------------------------------------
-- What match returns
-----------------------------------------------------------------------------------------

theorem Mask.match_question (depth : Nat) {rest : List Char} (more : rest ≠ [])
    (text : List Char)
    : Mask.match (depth + 1) ('?' :: rest) text = Mask.match depth rest text.tail := by
  have longer : 1 < rest.length + 1 := Nat.succ_lt_succ (List.length_pos_of_ne_nil more)
  simp [Mask.match, longer]

theorem Mask.match_same (depth : Nat) (symbol : Char) (rest text : List Char)
    : Mask.match (depth + 1) (symbol :: rest) (symbol :: text)
      = Mask.match depth rest text := by
  simp [Mask.match]

theorem Mask.match_star (depth : Nat) {letter : Char} (other : letter ≠ '*')
    (rest text : List Char)
    : Mask.match (depth + 1) ('*' :: rest) (letter :: text)
      = match Mask.match depth rest (letter :: text) with
        | some false => Mask.match depth ('*' :: rest) text
        | answer => answer := by
  simp [Mask.match, other.symm]

theorem Mask.match_star_ended (depth : Nat) {rest : List Char} (more : rest ≠ [])
    : Mask.match (depth + 1) ('*' :: rest) [] = some false := by
  have longer : 1 < rest.length + 1 := Nat.succ_lt_succ (List.length_pos_of_ne_nil more)
  simp [Mask.match, longer]

theorem Mask.match_other (depth : Nat) {symbol : Char} {rest text : List Char}
    (question : ¬ (rest ≠ [] ∧ symbol = '?')) (star : symbol ≠ '*')
    (other : text.head? ≠ some symbol)
    : Mask.match (depth + 1) (symbol :: rest) text = some false := by
  have differs : ¬ some symbol = text.head? := fun same => other same.symm
  simp only [Mask.match, List.length_cons, List.head?_cons, Option.some.injEq, star, differs]
  simp only [Nat.add_eq_zero_iff, one_ne_zero, and_false, false_and, or_false, if_false]
  refine if_neg ?_
  rintro ⟨longer, same⟩
  exact question ⟨List.length_pos_iff.mp (by omega), same⟩

/-- match returns, and True exactly for what the symbols find; by induction on the depth, with
the cases in the order of the source.
-/
theorem Mask.match_returns {depth : Nat} {mask text : List Char}
    (deep : mask.length + text.length < depth)
    : ∃ answer,
        Mask.match depth mask text = some answer
        ∧ (answer = true ↔ Mask.Found mask text) := by
  induction depth generalizing mask text with
  | zero => omega
  | succ depth ih =>
      cases mask with
      | nil =>
          cases text with
          | nil => exact ⟨true, by simp [Mask.match], by simp⟩
          | cons letter text => exact ⟨false, by simp [Mask.match], by simp⟩
      | cons symbol rest =>
          simp only [List.length_cons] at deep
          by_cases question : rest ≠ [] ∧ symbol = '?'
          · obtain ⟨more, rfl⟩ := question
            rw [match_question depth more, found_question more]
            exact ih (by simp only [List.length_tail]; omega)
          by_cases same : text.head? = some symbol
          · obtain ⟨text, rfl⟩ := List.head?_eq_some_iff.mp same
            rw [match_same, found_same]
            exact ih (by simp only [List.length_cons] at deep; omega)
          by_cases star : symbol = '*'
          · subst star
            cases text with
            | nil =>
                rw [found_star_ended]
                by_cases last : rest = []
                · -- match of two empty texts is True
                  subst last
                  obtain ⟨less, rfl⟩ : ∃ less, depth = less + 1 :=
                    Nat.exists_eq_succ_of_ne_zero (by simp at deep; omega)
                  exact ⟨true, by simp [Mask.match], by simp⟩
                · exact ⟨false, match_star_ended depth last, by simp [last]⟩
            | cons letter text =>
                have other : letter ≠ '*' := fun star => same (by simp [star])
                simp only [List.length_cons] at deep
                obtain ⟨stops, returns, stops_iff⟩ := @ih rest (letter :: text)
                  (by simp only [List.length_cons]; omega)
                rw [match_star depth other, found_star other, returns, ← stops_iff]
                cases stops with
                | true => exact ⟨true, rfl, by simp⟩
                | false =>
                    obtain ⟨takes, returns, takes_iff⟩ := @ih ('*' :: rest) text
                      (by simp only [List.length_cons]; omega)
                    exact ⟨takes, returns, by simpa using takes_iff⟩
          · exact ⟨false, match_other depth question star same,
              by simpa using not_found question star same⟩

-----------------------------------------------------------------------------------------
-- Against the language
-----------------------------------------------------------------------------------------

theorem standsFor_star (piece : List Char) : StandsFor '*' piece := trivial

theorem standsFor_self (symbol : Char) : StandsFor symbol [symbol] := by
  unfold StandsFor
  split
  · exact ⟨symbol, rfl⟩
  · split <;> trivial

theorem standsFor_literal {symbol : Char} (question : symbol ≠ '?') (star : symbol ≠ '*')
    (piece : List Char)
    : StandsFor symbol piece ↔ piece = [symbol] := by
  simp [StandsFor, question, star]

theorem Mask.mem_language_iff (mask text : List Char)
    : text ∈ Mask.language mask
      ↔ Divides (fun symbol _ piece _ => StandsFor symbol piece) mask text :=
  mem_prod_iff_divides symbolLanguage mask text

/-- A symbol stands for what it takes, by cases on the symbol. -/
theorem Takes.standsFor {symbol : Char} {rest piece following : List Char}
    (takes : Takes symbol rest piece following)
    : StandsFor symbol piece := by
  by_cases star : symbol = '*'
  · subst star
    exact standsFor_star piece
  unfold Takes at takes
  split at takes
  · obtain rfl : piece = [symbol] := by simpa [TakesLast, star] using takes
    exact standsFor_self symbol
  · by_cases question : symbol = '?'
    · subst question
      exact takes
    · rw [standsFor_literal question star]
      exact (takesInside_literal question star _ _).mp takes

theorem Mask.Straight.mem_language {mask text : List Char} (straight : Mask.Straight mask text)
    : text ∈ Mask.language mask := by
  rw [Mask.mem_language_iff]
  exact straight.imp (fun _ _ _ _ _ takes => takes.standsFor)

/-- match is right about a mask and a text if a text of the language has a straight division
or ends in the run of ? ahead of a last *, and a text that ends there is of the language; else
it is wrong.
-/
theorem Mask.exact_iff (mask text : List Char)
    : Mask.Exact mask text
      ↔ (text ∈ Mask.language mask → Mask.Straight mask text ∨ Mask.EndsInRun mask text)
        ∧ (Mask.EndsInRun mask text → text ∈ Mask.language mask) := by
  obtain ⟨answer, returns, found⟩ := Mask.match_returns
    (Nat.lt_succ_self (mask.length + text.length))
  rw [Mask.Exact, returns, Option.some.injEq, found, Mask.Found]
  constructor
  · exact fun exact_ => ⟨exact_.mpr, fun ended => exact_.mp (.inr ended)⟩
  · rintro ⟨divided, ended⟩
    exact ⟨fun found => found.elim Mask.Straight.mem_language ended, divided⟩

-----------------------------------------------------------------------------------------
-- The masks that are exact for all texts
-----------------------------------------------------------------------------------------

theorem StarLast.count_le {piece : List Char} (last : StarLast piece)
    : piece.count '*' ≤ 1 := by
  cases piece using List.reverseRecOn with
  | nil => simp
  | append_singleton front letter =>
      have none_ : front.count '*' = 0 := by simpa [StarLast, List.count_eq_zero] using last
      rw [List.count_append, none_, Nat.zero_add]
      exact List.count_le_length

/-- No symbol takes a second *. -/
theorem takesInside_count_le {symbol : Char} {piece following : List Char}
    (takes : TakesInside symbol piece following)
    : piece.count '*' ≤ 1 := by
  unfold TakesInside at takes
  split at takes
  · obtain ⟨letter, rfl⟩ := takes
    exact List.count_le_length
  · split at takes
    · exact takes.1.count_le
    · exact takes ▸ List.count_le_length

theorem Takes.count_le {symbol : Char} {rest piece following : List Char}
    (takes : Takes symbol rest piece following)
    : piece.count '*' ≤ 1 := by
  unfold Takes at takes
  split at takes
  · unfold TakesLast at takes
    split at takes
    · exact takes.count_le
    · exact takes ▸ List.count_le_length
  · exact takesInside_count_le takes

/-- match finds no text with more * than the mask has symbols. -/
theorem Mask.Found.count_le {mask text : List Char} (found : Mask.Found mask text)
    : text.count '*' ≤ mask.length := by
  rcases found with straight | ⟨front, run, rfl, divides⟩
  · exact straight.count_le '*' (fun _ _ _ _ takes => takes.count_le)
  · have few := divides.count_le '*' (fun _ _ _ _ takes => takesInside_count_le takes)
    simp only [List.length_append]
    omega

/-- A mask is a text of its language, by induction on it. -/
theorem Mask.divides_self (mask : List Char)
    : Divides (fun symbol _ piece _ => StandsFor symbol piece) mask mask := by
  induction mask with
  | nil => rfl
  | cons symbol rest ih => exact ⟨[symbol], rest, rfl, standsFor_self symbol, ih⟩

/-- A * of the mask stands for more than match finds. -/
theorem Mask.exists_not_found_of_star {mask : List Char} (star : '*' ∈ mask)
    : ∃ text ∈ Mask.language mask, ¬ Mask.Found mask text := by
  obtain ⟨front, back, rfl⟩ := List.append_of_mem star
  let stars := List.replicate (front ++ '*' :: back).length.succ '*'
  refine ⟨front ++ (stars ++ back), ?_, ?_⟩
  · rw [Mask.mem_language_iff]
    exact (Mask.divides_self front).append
      ⟨stars, back, rfl, standsFor_star stars, Mask.divides_self back⟩
  · intro found
    have few := found.count_le
    simp only [List.count_append, stars, List.count_replicate_self] at few
    omega

/-- The last symbol, where it is not *, takes the last character, by induction on the symbols
ahead of it.
-/
theorem Mask.Straight.getLast? {front : List Char} {symbol : Char} (star : symbol ≠ '*')
    {text : List Char} (straight : Mask.Straight (front ++ [symbol]) text)
    : text.getLast? = some symbol := by
  induction front generalizing text with
  | nil =>
      obtain rfl : text = [symbol] := by
        simpa [Mask.Straight, divides_singleton, Takes, TakesLast, star] using straight
      rfl
  | cons first front ih =>
      obtain ⟨piece, following, rfl, -, later⟩ := straight
      rw [List.getLast?_append, ih later, Option.some_or]

/-- A ? at the end of the mask finds only itself. -/
theorem Mask.exists_not_found_of_question (front : List Char)
    : ∃ text ∈ Mask.language (front ++ ['?']), ¬ Mask.Found (front ++ ['?']) text := by
  refine ⟨front ++ ['a'], ?_, ?_⟩
  · rw [Mask.mem_language_iff]
    exact (Mask.divides_self front).append ((divides_singleton _ _).mpr ⟨'a', rfl⟩)
  · rintro (straight | ⟨front', run, ends, -⟩)
    · have last := straight.getLast? (by decide)
      simp at last
    · have last := congrArg List.getLast? ends
      simp at last

/-- Without * and without a ? at the end every text of the language has a straight division. -/
theorem Mask.straight_of_mem_language {mask text : List Char} (star : '*' ∉ mask)
    (question : mask.getLast? ≠ some '?') (member : text ∈ Mask.language mask)
    : Mask.Straight mask text := by
  refine ((Mask.mem_language_iff mask text).mp member).imp ?_
  intro symbol rest piece following within stands
  have other : symbol ≠ '*' := fun same => star (same ▸ within.subset List.mem_cons_self)
  by_cases last : rest = []
  · subst last
    have literal : symbol ≠ '?' := by
      rintro rfl
      obtain ⟨front, rfl⟩ := within
      exact question (by simp)
    simpa [Takes, TakesLast, other, standsFor_literal literal other] using stands
  · by_cases literal : symbol = '?'
    · subst literal
      rw [Takes, if_neg last]
      exact stands
    · rw [Takes, if_neg last, takesInside_literal literal other]
      exact (standsFor_literal literal other _).mp stands

/-- match is right about all texts for the masks without * that do not end in ?. -/
theorem Mask.exact_forall_iff (mask : List Char)
    : (∀ text, Mask.Exact mask text) ↔ '*' ∉ mask ∧ mask.getLast? ≠ some '?' := by
  simp only [Mask.exact_iff]
  constructor
  · intro exact_
    refine ⟨fun star => ?_, fun question => ?_⟩
    · obtain ⟨text, member, unfound⟩ := Mask.exists_not_found_of_star star
      exact unfound ((exact_ text).1 member)
    · obtain ⟨front, rfl⟩ := List.getLast?_eq_some_iff.mp question
      obtain ⟨text, member, unfound⟩ := Mask.exists_not_found_of_question front
      exact unfound ((exact_ text).1 member)
  · rintro ⟨star, question⟩ text
    refine ⟨fun member => .inl (Mask.straight_of_mem_language star question member), ?_⟩
    rintro ⟨front, run, rfl, -⟩
    exact (star (by simp)).elim

/-- For a mask and a text match is right exactly if a text of the language is divided straight
or ends in the run of ? ahead of a last *, and a text that ends there is of the language. For a
mask and all texts it is right exactly if the mask has no * and does not end in ?.
-/
theorem match_exact_iff (mask : List Char)
    : (∀ text,
        Mask.Exact mask text
        ↔ (text ∈ Mask.language mask → Mask.Straight mask text ∨ Mask.EndsInRun mask text)
          ∧ (Mask.EndsInRun mask text → text ∈ Mask.language mask))
      ∧ ((∀ text, Mask.Exact mask text) ↔ '*' ∉ mask ∧ mask.getLast? ≠ some '?') :=
  ⟨Mask.exact_iff mask, Mask.exact_forall_iff mask⟩

/-- A * of the mask that meets a * of the text takes no more than that. -/
theorem match_exact_secondStar : ¬ Mask.Exact ['*', 'a'] ['*', 'b', 'a'] := by
  intro exact_
  have member : ['*', 'b', 'a'] ∈ Mask.language ['*', 'a'] := by
    rw [Mask.mem_language_iff]
    exact ⟨['*', 'b'], ['a'], rfl, trivial, ['a'], [], rfl, rfl, rfl⟩
  exact absurd (exact_.mpr member) (by decide)

end PgCluster.Backend
