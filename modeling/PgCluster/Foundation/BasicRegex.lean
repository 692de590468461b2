import Mathlib.Data.List.Infix

/-! Basic regular expressions without brackets and backslashes, searched in one line.
A star repeats the character before it and is literal in first place; the anchors
count only at the two ends of a pattern.
-/

namespace Foundation

inductive Atom where
  | char (value : Char)
  | any
deriving DecidableEq, Repr

def Atom.accepts : Atom → Char → Bool
  | .char value, next => value == next
  | .any, _ => true

structure Piece where
  atom : Atom
  starred : Bool
deriving DecidableEq, Repr

structure BasicRegex where
  fromStart : Bool
  pieces : List Piece
  toEnd : Bool
deriving DecidableEq, Repr

def readAtom (value : Char) : Atom :=
  if value = '.' then .any else .char value

/-- Reads a pattern body; the pending piece may still be starred by the next character. -/
def readPieces : Option Piece → List Char → List Piece
  | pending, [] => pending.toList
  | none, value :: rest => readPieces (some ⟨readAtom value, false⟩) rest
  | some piece, value :: rest =>
      if value = '*' then readPieces (some { piece with starred := true }) rest
      else piece :: readPieces (some ⟨readAtom value, false⟩) rest

/-- Splits the anchors from the body of a pattern and reads the body. -/
def BasicRegex.read (pattern : List Char) : BasicRegex :=
  let body := if pattern.head? = some '^' then pattern.tail else pattern
  {
    fromStart := pattern.head? = some '^'
    pieces := readPieces none (if body.getLast? = some '$' then body.dropLast else body)
    toEnd := body.getLast? = some '$'
  }

def skipping (atom : Atom) (next : List Char → Bool) : List Char → Bool
  | [] => next []
  | value :: rest =>
      next (value :: rest) || (atom.accepts value && skipping atom next rest)

/-- The pieces match a prefix of the input, up to its end when anchored there. -/
def matchesFrom (toEnd : Bool) : List Piece → List Char → Bool
  | [], input => !toEnd || input.isEmpty
  | ⟨atom, true⟩ :: pieces, input => skipping atom (matchesFrom toEnd pieces) input
  | ⟨_, false⟩ :: _, [] => false
  | ⟨atom, false⟩ :: pieces, value :: input =>
      atom.accepts value && matchesFrom toEnd pieces input

/-- The pattern matches somewhere in the line. -/
def BasicRegex.search (regex : BasicRegex) (line : List Char) : Bool :=
  if regex.fromStart then matchesFrom regex.toEnd regex.pieces line
  else line.tails.any (matchesFrom regex.toEnd regex.pieces)

/-- `Consumes pieces input rest`: the pieces match the input in front of `rest`. -/
inductive Consumes : List Piece → List Char → List Char → Prop where
  | done {input} : Consumes [] input input
  | one {atom pieces value input rest} (accepted : atom.accepts value = true)
    (below : Consumes pieces input rest)
    : Consumes (⟨atom, false⟩ :: pieces) (value :: input) rest
  | skip {atom pieces input rest} (below : Consumes pieces input rest)
    : Consumes (⟨atom, true⟩ :: pieces) input rest
  | again {atom pieces value input rest} (accepted : atom.accepts value = true)
    (below : Consumes (⟨atom, true⟩ :: pieces) input rest)
    : Consumes (⟨atom, true⟩ :: pieces) (value :: input) rest

/-- A repetition stops at some suffix reached through accepted characters, by induction
on the input.
-/
theorem skipping_iff {atom : Atom} {pieces : List Piece} {next : List Char → Bool}
    {final : List Char → Prop}
    (decides
      : ∀ input, next input = true ↔ ∃ rest, Consumes pieces input rest ∧ final rest)
    (input : List Char)
    : skipping atom next input = true
      ↔ ∃ rest, Consumes (⟨atom, true⟩ :: pieces) input rest ∧ final rest := by
  induction input with
  | nil =>
      rw [skipping, decides]
      constructor
      · rintro ⟨rest, below, last⟩
        exact ⟨rest, .skip below, last⟩
      · rintro ⟨rest, path, last⟩
        cases path with
        | skip below => exact ⟨rest, below, last⟩
  | cons value input ih =>
      rw [skipping, Bool.or_eq_true, Bool.and_eq_true, decides, ih]
      constructor
      · rintro (⟨rest, below, last⟩ | ⟨accepted, rest, below, last⟩)
        · exact ⟨rest, .skip below, last⟩
        · exact ⟨rest, .again accepted below, last⟩
      · rintro ⟨rest, path, last⟩
        cases path with
        | skip below => exact Or.inl ⟨rest, below, last⟩
        | again accepted below => exact Or.inr ⟨accepted, rest, below, last⟩

/-- The prefix matcher decides consumption, by induction on the pieces. -/
theorem matchesFrom_iff (toEnd : Bool) (pieces : List Piece) (input : List Char)
    : matchesFrom toEnd pieces input = true
      ↔ ∃ rest, Consumes pieces input rest ∧ (toEnd = true → rest = []) := by
  induction pieces generalizing input with
  | nil =>
      constructor
      · intro matched
        exact ⟨input, .done, fun anchored => by simpa [matchesFrom, anchored] using matched⟩
      · rintro ⟨rest, path, last⟩
        cases path
        cases toEnd <;> simp_all [matchesFrom]
  | cons piece pieces ih =>
      obtain ⟨atom, starred⟩ := piece
      cases starred with
      | true => exact skipping_iff ih input
      | false =>
          cases input with
          | nil =>
              simp only [matchesFrom, Bool.false_eq_true, false_iff]
              rintro ⟨rest, path, _⟩
              cases path
          | cons value input =>
              rw [matchesFrom, Bool.and_eq_true, ih]
              constructor
              · rintro ⟨accepted, rest, below, last⟩
                exact ⟨rest, .one accepted below, last⟩
              · rintro ⟨rest, path, last⟩
                cases path with
                | one accepted below => exact ⟨accepted, rest, below, last⟩

/-- A search succeeds exactly when the pieces match behind some start of the line. -/
theorem BasicRegex.search_iff (regex : BasicRegex) (line : List Char)
    : regex.search line = true
      ↔ ∃ before input rest,
          line = before ++ input
          ∧ (regex.fromStart = true → before = [])
          ∧ Consumes regex.pieces input rest
          ∧ (regex.toEnd = true → rest = []) := by
  unfold BasicRegex.search
  split
  · rename_i anchored
    rw [matchesFrom_iff]
    constructor
    · rintro ⟨rest, path, last⟩
      exact ⟨[], line, rest, rfl, fun _ => rfl, path, last⟩
    · rintro ⟨before, input, rest, split, start, path, last⟩
      have same : line = input := by simpa [start anchored] using split
      exact ⟨rest, same ▸ path, last⟩
  · rename_i free
    rw [List.any_eq_true]
    constructor
    · rintro ⟨input, member, matched⟩
      obtain ⟨before, split⟩ := (List.mem_tails _ _).mp member
      obtain ⟨rest, path, last⟩ := (matchesFrom_iff _ _ _).mp matched
      exact ⟨before, input, rest, split.symm, fun anchored => absurd anchored free, path, last⟩
    · rintro ⟨before, input, rest, split, _, path, last⟩
      exact ⟨input, (List.mem_tails _ _).mpr ⟨before, split.symm⟩,
        (matchesFrom_iff _ _ _).mpr ⟨rest, path, last⟩⟩

/-- No star and no anchor: every character stands for one character of the line. -/
def Unrepeated (pattern : List Char) : Prop :=
  ∀ value ∈ pattern, value ≠ '*' ∧ value ≠ '^' ∧ value ≠ '$'

theorem readAtom_accepts_self (value : Char) : (readAtom value).accepts value = true := by
  unfold readAtom
  split <;> simp [Atom.accepts]

/-- Without stars each character becomes one plain piece, by induction on the body. -/
theorem readPieces_some_unrepeated {piece : Piece} {body : List Char}
    (plain : Unrepeated body)
    : readPieces (some piece) body
      = piece :: body.map (fun value => ⟨readAtom value, false⟩) := by
  induction body generalizing piece with
  | nil => rfl
  | cons value rest ih =>
      have tail : Unrepeated rest := fun next member => plain next (by simp [member])
      simp [readPieces, (plain value (by simp)).1, ih tail]

theorem readPieces_unrepeated {body : List Char} (plain : Unrepeated body)
    : readPieces none body = body.map (fun value => ⟨readAtom value, false⟩) := by
  cases body with
  | nil => rfl
  | cons value rest =>
      exact readPieces_some_unrepeated (fun next member => plain next (by simp [member]))

/-- Plain pieces consume the text they were read from, by list induction. -/
theorem consumes_self (body after : List Char)
    : Consumes (body.map (fun value => ⟨readAtom value, false⟩)) (body ++ after) after := by
  induction body with
  | nil => exact .done
  | cons value rest ih => exact .one (readAtom_accepts_self value) ih

theorem Unrepeated.getLast?_ne {pattern : List Char} (plain : Unrepeated pattern)
    : pattern.getLast? ≠ some '$' := by
  intro last
  exact (plain '$' (List.mem_of_getLast? last)).2.2 rfl

theorem read_unrepeated {pattern : List Char} (plain : Unrepeated pattern)
    : BasicRegex.read pattern
      = ⟨false, pattern.map (fun value => ⟨readAtom value, false⟩), false⟩ := by
  have head : pattern.head? ≠ some '^' := by
    intro first
    exact (plain '^' (List.mem_of_head? first)).2.1 rfl
  simp [BasicRegex.read, head, plain.getLast?_ne, readPieces_unrepeated plain]

/-- A pattern without repetitions finds its own text anywhere in a line. -/
theorem search_read_self {pattern : List Char} (plain : Unrepeated pattern)
    (before after : List Char)
    : (BasicRegex.read pattern).search (before ++ (pattern ++ after)) = true := by
  rw [BasicRegex.search_iff, read_unrepeated plain]
  exact ⟨before, pattern ++ after, after, rfl, by simp, consumes_self pattern after, by simp⟩

/-- Literal pieces consume exactly the text they were read from, by list induction. -/
theorem consumes_literal_iff {body input rest : List Char} (literal : '.' ∉ body)
    : Consumes (body.map (fun value => ⟨readAtom value, false⟩)) input rest
      ↔ input = body ++ rest := by
  induction body generalizing input with
  | nil =>
      constructor
      · intro path
        cases path
        rfl
      · rintro rfl
        exact .done
  | cons value body ih =>
      simp only [List.mem_cons, not_or] at literal
      constructor
      · intro path
        cases path with
        | @one _ _ next input _ accepted below =>
            have same : value = next := by
              simpa [readAtom, Ne.symm literal.1, Atom.accepts] using accepted
            rw [(ih literal.2).mp below, same, List.cons_append]
      · rintro rfl
        exact consumes_self (value :: body) rest

/-- An anchored literal pattern is found exactly in the lines that begin with it. -/
theorem search_read_anchored_iff {body : List Char} (plain : Unrepeated body)
    (literal : '.' ∉ body) (line : List Char)
    : (BasicRegex.read ('^' :: body)).search line = true ↔ body <+: line := by
  have shape : BasicRegex.read ('^' :: body)
      = ⟨true, body.map (fun value => ⟨readAtom value, false⟩), false⟩ := by
    simp [BasicRegex.read, plain.getLast?_ne, readPieces_unrepeated plain]
  rw [BasicRegex.search_iff, shape]
  constructor
  · rintro ⟨before, input, rest, split, start, path, _⟩
    have same : line = input := by simpa [start rfl] using split
    exact ⟨rest, by rw [same, (consumes_literal_iff literal).mp path]⟩
  · rintro ⟨rest, rfl⟩
    exact ⟨[], body ++ rest, rest, rfl, fun _ => rfl, consumes_self body rest, by simp⟩

example : (BasicRegex.read "n.de1*0".toList).search "x, node110, y".toList = true := by decide

end Foundation
