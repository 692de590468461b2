import Mathlib.Computability.Language

/-! Texts divided along a list of symbols, one piece for each, and the languages that are
products of the languages of symbols.
-/

namespace Foundation

variable {Symbol α : Type*}

/-- The text is divided into one piece for each symbol. The rule for a piece sees the symbol,
the symbols behind it, the piece, and the text behind it.
-/
def Divides (rule : Symbol → List Symbol → List α → List α → Prop)
    : List Symbol → List α → Prop
  | [], text => text = []
  | symbol :: rest, text =>
      ∃ piece following,
        piece ++ following = text ∧ rule symbol rest piece following
        ∧ Divides rule rest following

variable {rule other : Symbol → List Symbol → List α → List α → Prop}

@[simp] theorem divides_nil (text : List α) : Divides rule [] text ↔ text = [] := Iff.rfl

theorem divides_singleton (symbol : Symbol) (text : List α)
    : Divides rule [symbol] text ↔ rule symbol [] text [] := by
  constructor
  · rintro ⟨piece, following, rfl, fits, rfl⟩
    simpa using fits
  · exact fun fits => ⟨text, [], by simp, fits, rfl⟩

/-- A division of the first text and one of the second make one of both, where the rule does
not look ahead; by induction on the first symbols.
-/
theorem Divides.append {rule : Symbol → List α → Prop} {first second : List Symbol}
    {text following : List α}
    (front : Divides (fun symbol _ piece _ => rule symbol piece) first text)
    (back : Divides (fun symbol _ piece _ => rule symbol piece) second following)
    : Divides (fun symbol _ piece _ => rule symbol piece) (first ++ second)
        (text ++ following) := by
  induction first generalizing text with
  | nil =>
      obtain rfl : text = [] := front
      exact back
  | cons symbol rest ih =>
      obtain ⟨piece, later, rfl, fits, divides⟩ := front
      exact ⟨piece, later ++ following, by simp, fits, ih divides⟩

/-- Division under a rule that gives another one for the symbols in question, by induction on
the symbols.
-/
theorem Divides.imp {symbols : List Symbol} {text : List α} (divides : Divides rule symbols text)
    (gives
      : ∀ symbol rest piece following,
          symbol :: rest <:+ symbols → rule symbol rest piece following
          → other symbol rest piece following)
    : Divides other symbols text := by
  induction symbols generalizing text with
  | nil => exact divides
  | cons symbol rest ih =>
      obtain ⟨piece, following, joined, fits, later⟩ := divides
      refine ⟨piece, following, joined, gives _ _ _ _ List.suffix_rfl fits, ih later ?_⟩
      intro symbol' rest' piece' following' within
      exact gives symbol' rest' piece' following' (within.trans (List.suffix_cons symbol rest))

/-- The product of the languages of the symbols, by induction on them. -/
theorem mem_prod_iff_divides (languages : Symbol → Language α) (symbols : List Symbol)
    (text : List α)
    : text ∈ (symbols.map languages).prod
      ↔ Divides (fun symbol _ piece _ => piece ∈ languages symbol) symbols text := by
  induction symbols generalizing text with
  | nil => exact Language.mem_one text
  | cons symbol rest ih =>
      rw [List.map_cons, List.prod_cons, Language.mem_mul]
      constructor
      · rintro ⟨piece, fits, following, later, joined⟩
        exact ⟨piece, following, joined, fits, (ih following).mp later⟩
      · rintro ⟨piece, following, joined, fits, later⟩
        exact ⟨piece, fits, following, (ih following).mpr later, joined⟩

/-- What every piece has at most once the text has at most once for each symbol, by induction
on the symbols.
-/
theorem Divides.count_le [DecidableEq α] {symbols : List Symbol} {text : List α} (letter : α)
    (divides : Divides rule symbols text)
    (single
      : ∀ symbol rest piece following,
          rule symbol rest piece following → piece.count letter ≤ 1)
    : text.count letter ≤ symbols.length := by
  induction symbols generalizing text with
  | nil =>
      obtain rfl : text = [] := divides
      simp
  | cons symbol rest ih =>
      obtain ⟨piece, following, rfl, fits, later⟩ := divides
      have one := single symbol rest piece following fits
      have rest_ := ih later
      rw [List.count_append, List.length_cons]
      omega

end Foundation
