import PgCluster.Foundation.TextSearch
import PgCluster.Foundation.TextTables

/-! The values of the configuration file: comments cut off, quotes taken away, and which
values come back as they were written.
-/

namespace PgCluster.Backend

open Foundation

/-- A value that has been read, as a text or as a flag. -/
inductive ConfParam where
  | text (value : List Char)
  | flag (value : Bool)
deriving DecidableEq, Repr

/-- The characters of `strip(' \t\n\r')`. -/
def isSpace (letter : Char) : Bool := letter ∈ [' ', '\t', '\n', '\r']

/-- The value up to the letter before its first #. -/
def uncommented (rawValue : List Char) : List Char :=
  if findLetter '#' rawValue > -1 then sliceTo (findLetter '#' rawValue - 1) rawValue
  else rawValue

/-- What stands in the first quotes, or all of it without the space around. -/
def unquoted (value : List Char) : List Char :=
  match findAll (delimitedAt '"') 0 value with
  | quote :: _ => quote.filter (· ≠ '"')
  | [] => strip isSpace value

def readConfParamValue (rawValue : List Char) (boolean : Bool) : ConfParam :=
  let valueRes := unquoted (uncommented rawValue)
  if boolean then
    .flag (String.ofList valueRes ∈ ["1", "t", "true", "True", "TRUE"])
  else
    .text valueRes

def quoted (value : List Char) : List Char := '"' :: value ++ ['"']

/-- The value is read as it was written, with and without a comment behind it: in quotes
exactly, without them up to the space around it.
-/
structure ReadBack (value blanks comment : List Char) : Prop where
  plain
    : '#' ∉ value
      → readConfParamValue value false = .text (strip isSpace value)
        ∧ ((value ≠ [] → blanks ≠ [])
          → readConfParamValue (value ++ blanks ++ '#' :: comment) false
            = .text (strip isSpace value))
  inQuotes
    : readConfParamValue (quoted value) false = .text value
      ∧ (blanks ≠ []
        → readConfParamValue (quoted value ++ blanks ++ '#' :: comment) false = .text value)

/-- The comment is empty, or without its last letter it has empty quotes for its first. -/
def ReadsEmpty (comment : List Char) : Prop :=
  comment = [] ∨ ∃ front rest, '"' ∉ front ∧ comment.dropLast = front ++ '"' :: '"' :: rest

-----------------------------------------------------------------------------------------
-- The two stages
-----------------------------------------------------------------------------------------

theorem uncommented_of_notMem {value : List Char} (absent : '#' ∉ value)
    : uncommented value = value := by
  simp [uncommented, findLetter_of_notMem absent]

/-- The letter before the first # goes with it. -/
theorem uncommented_append {front : List Char} (nonempty : front ≠ []) (absent : '#' ∉ front)
    (comment : List Char)
    : uncommented (front ++ '#' :: comment) = front.dropLast := by
  have place := findLetter_append absent comment
  rw [uncommented, place, if_pos (by omega), sliceTo_pred nonempty]

/-- Before a # in the first place there is no letter: the last one goes instead. -/
theorem uncommented_hash (comment : List Char)
    : uncommented ('#' :: comment) = ('#' :: comment).dropLast := by
  have place : findLetter '#' ('#' :: comment) = 0 := findLetter_append List.not_mem_nil comment
  rw [uncommented, place, if_pos (by omega), Int.zero_sub, sliceTo_neg_one]

theorem unquoted_of_notMem {value : List Char} (absent : '"' ∉ value)
    : unquoted value = strip isSpace value := by
  rw [unquoted, findAll_delimited_of_notMem absent]

theorem unquoted_append {front inner : List Char} (before : '"' ∉ front) (absent : '"' ∉ inner)
    (rest : List Char)
    : unquoted (front ++ ('"' :: inner ++ '"' :: rest)) = inner := by
  rw [unquoted, findAll_delimited_append before, findAll_delimited absent]
  have kept : inner.filter (fun letter => letter ≠ '"') = inner := by
    rw [List.filter_eq_self]
    intro letter member
    simpa using fun same : letter = '"' => absent (same ▸ member)
  simpa using kept

/-- A single quote is an ordinary letter. -/
theorem unquoted_of_single {front rest : List Char} (before : '"' ∉ front)
    (behind : '"' ∉ rest)
    : unquoted (front ++ '"' :: rest) = strip isSpace (front ++ '"' :: rest) := by
  rw [unquoted, findAll_delimited_append before, findAll_delimited_open behind]

-----------------------------------------------------------------------------------------
-- Values without quotes
-----------------------------------------------------------------------------------------

/-- A value and blanks are left of a commented one, but for the last blank. -/
theorem uncommented_blanks {value blanks : List Char} (hashless : '#' ∉ value)
    (blank : ∀ letter ∈ blanks, isBlank letter = true) (nonempty : blanks ≠ [])
    (comment : List Char)
    : uncommented (value ++ blanks ++ '#' :: comment) = value ++ blanks.dropLast := by
  have absent : '#' ∉ value ++ blanks := by
    rw [List.mem_append]
    rintro (inside | behind)
    · exact hashless inside
    · exact absurd (blank _ behind) (by decide)
  rw [uncommented_append (by simp [nonempty]) absent, List.dropLast_append_of_ne_nil nonempty]

theorem isSpace_of_isBlank {letter : Char} (blank : isBlank letter = true)
    : isSpace letter = true := by
  simp only [isBlank, Bool.or_eq_true, decide_eq_true_eq] at blank
  rcases blank with rfl | rfl <;> rfl

/-- A comment in the first place is read as nothing only with empty quotes in it. -/
theorem unquoted_hash_iff (comment : List Char)
    : unquoted ('#' :: comment).dropLast = [] ↔ ReadsEmpty comment := by
  by_cases empty : comment = []
  · subst empty
    exact iff_of_true (by decide) (.inl rfl)
  rw [List.dropLast_cons_of_ne_nil empty]
  have strips : ∀ rest, strip isSpace ('#' :: rest) ≠ [] := by
    intro rest same
    obtain ⟨others, stays⟩ := strip_cons (by decide : isSpace '#' = false) rest
    rw [stays] at same
    cases same
  constructor
  · intro reads
    by_cases quote : '"' ∈ comment.dropLast
    · obtain ⟨front, rest, split, before⟩ := List.eq_append_cons_of_mem quote
      have before_ : '"' ∉ '#' :: front := by simp [before]
      rw [split, ← List.cons_append] at reads
      by_cases second : '"' ∈ rest
      · obtain ⟨inner, rest, rfl, absent⟩ := List.eq_append_cons_of_mem second
        rw [← List.cons_append, unquoted_append before_ absent] at reads
        exact .inr ⟨front, rest, before, by rw [split, reads, List.nil_append]⟩
      · rw [unquoted_of_single before_ second] at reads
        exact absurd reads (strips _)
    · have absent : '"' ∉ '#' :: comment.dropLast := by simp [quote]
      rw [unquoted_of_notMem absent] at reads
      exact absurd reads (strips _)
  · rintro (none_ | ⟨front, rest, before, split⟩)
    · exact absurd none_ empty
    · have before_ : '"' ∉ '#' :: front := by simp [before]
      have reads := unquoted_append before_ (List.not_mem_nil (a := '"')) rest
      rw [split]
      exact reads

-----------------------------------------------------------------------------------------
-- Both forms of a value
-----------------------------------------------------------------------------------------

variable {value blanks : List Char}

/-- Without quotes a value comes back, unless the comment stands in the first place. -/
theorem plain_back_iff (quoteless : '"' ∉ value) (hashless : '#' ∉ value)
    (blank : ∀ letter ∈ blanks, isBlank letter = true) (separated : value ≠ [] → blanks ≠ [])
    (comment : List Char)
    : unquoted (uncommented (value ++ blanks ++ '#' :: comment)) = strip isSpace value
      ↔ (value = [] → blanks = [] → ReadsEmpty comment) := by
  by_cases nonempty : blanks = []
  · have empty : value = [] := by
      by_contra some_
      exact separated some_ nonempty
    subst nonempty empty
    simp only [List.nil_append, uncommented_hash, forall_const]
    exact unquoted_hash_iff comment
  · have absent : '"' ∉ value ++ blanks.dropLast := by
      rw [List.mem_append]
      rintro (inside | behind)
      · exact quoteless inside
      · exact absurd (blank _ (List.mem_of_mem_dropLast behind)) (by decide)
    have space : ∀ letter ∈ blanks.dropLast, isSpace letter = true :=
      fun letter member => isSpace_of_isBlank (blank letter (List.mem_of_mem_dropLast member))
    refine iff_of_true ?_ (fun _ none_ => absurd none_ nonempty)
    rw [uncommented_blanks hashless blank nonempty, unquoted_of_notMem absent,
      strip_append space]

/-- In quotes a value comes back, unless a # cuts off the second quote. -/
theorem quoted_back_iff (quoteless : '"' ∉ value)
    : unquoted (uncommented (quoted value)) = value ↔ '#' ∉ value := by
  constructor
  · intro reads hash
    obtain ⟨front, rest, split, absent⟩ := List.eq_append_cons_of_mem hash
    have cut : uncommented (quoted value) = ('"' :: front).dropLast := by
      have whole : quoted value = ('"' :: front) ++ '#' :: (rest ++ ['"']) := by
        simp [quoted, split]
      rw [whole, uncommented_append (by simp) (by simp [absent])]
    rw [cut] at reads
    by_cases empty : front = []
    · subst empty
      rw [← reads] at hash
      exact absurd hash (by decide)
    · rw [List.dropLast_cons_of_ne_nil empty] at reads
      have behind : '"' ∉ front.dropLast := by
        intro inside
        exact quoteless (by simp [split, List.mem_of_mem_dropLast inside])
      have single := unquoted_of_single List.not_mem_nil behind
      rw [List.nil_append, reads] at single
      obtain ⟨others, stays⟩ := strip_cons (by decide : isSpace '"' = false) front.dropLast
      rw [stays] at single
      exact quoteless (by simp [single])
  · intro hashless
    have absent : '#' ∉ quoted value := by simp [quoted, hashless]
    rw [uncommented_of_notMem absent]
    exact unquoted_append List.not_mem_nil quoteless []

/-- A comment behind the quotes changes nothing. -/
theorem quoted_commented_back (quoteless : '"' ∉ value) (hashless : '#' ∉ value)
    (blank : ∀ letter ∈ blanks, isBlank letter = true) (nonempty : blanks ≠ [])
    (comment : List Char)
    : unquoted (uncommented (quoted value ++ blanks ++ '#' :: comment)) = value := by
  have absent : '#' ∉ quoted value := by simp [quoted, hashless]
  have whole : quoted value ++ blanks.dropLast
      = [] ++ ('"' :: value ++ '"' :: blanks.dropLast) := by simp [quoted]
  rw [uncommented_blanks absent blank nonempty, whole]
  exact unquoted_append List.not_mem_nil quoteless _

/-- A value comes back with and without a comment exactly if it has no #, and, where nothing
at all stands before the comment, the comment is read as nothing.
-/
theorem readBack_iff_hashless (quoteless : '"' ∉ value)
    (blank : ∀ letter ∈ blanks, isBlank letter = true) (comment : List Char)
    : ReadBack value blanks comment
      ↔ '#' ∉ value ∧ (value = [] → blanks = [] → ReadsEmpty comment) := by
  have reads : ∀ rawValue text,
      readConfParamValue rawValue false = .text text
        ↔ unquoted (uncommented rawValue) = text := by
    intro rawValue text
    simp [readConfParamValue]
  constructor
  · intro back
    have hashless := (quoted_back_iff quoteless).mp ((reads _ _).mp back.inQuotes.1)
    refine ⟨hashless, fun empty none_ => ?_⟩
    have separated : value ≠ [] → blanks ≠ [] := absurd empty
    have plain := (reads _ _).mp ((back.plain hashless).2 separated)
    exact (plain_back_iff quoteless hashless blank separated comment).mp plain empty none_
  · rintro ⟨hashless, first⟩
    refine ⟨fun _ => ⟨(reads _ _).mpr ?_, fun separated => (reads _ _).mpr ?_⟩,
      (reads _ _).mpr ?_, fun nonempty => (reads _ _).mpr ?_⟩
    · rw [uncommented_of_notMem hashless, unquoted_of_notMem quoteless]
    · exact (plain_back_iff quoteless hashless blank separated comment).mpr first
    · exact (quoted_back_iff quoteless).mpr hashless
    · exact quoted_commented_back quoteless hashless blank nonempty comment

/-- The second of the four documented forms. -/
theorem readBack_documented : ReadBack "common args".toList [' '] "comment".toList :=
  (readBack_iff_hashless (by decide) (by simp [isBlank]) "comment".toList).mpr
    ⟨by decide, fun empty => absurd empty (by decide)⟩

/-- A password with a # loses all from there on, and a value that is only a comment is read
as the comment.
-/
theorem readBack_hash
    : ¬ ReadBack "pq://admin:pa#ss@db1/postgres".toList [' '] []
      ∧ ¬ ReadBack [] [] " unset".toList := by
  constructor
  · intro back
    exact absurd back.inQuotes.1 (by decide)
  · intro back
    exact absurd ((back.plain (by decide)).2 (by decide)) (by decide)

end PgCluster.Backend
