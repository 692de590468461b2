import Mathlib.Data.List.Lex
import Mathlib.Data.String.Basic

/-! Decimal numerals: their values, and how texts that begin with numerals of one length are
ordered.
-/

namespace Foundation

def numeralValue (digits : List Char) : Nat := Nat.ofDigitChars 10 digits 0

def IsNumeral (digits : List Char) : Prop := ∀ digit ∈ digits, digit.isDigit = true

instance (digits : List Char) : Decidable (IsNumeral digits) :=
  List.decidableBAll (fun digit : Char => digit.isDigit = true) digits

-----------------------------------------------------------------------------------------
-- Values
-----------------------------------------------------------------------------------------

/-- The first digit counts once for each numeral of the length of the others. -/
theorem numeralValue_cons (digit : Char) (rest : List Char)
    : numeralValue (digit :: rest)
      = (digit.toNat - '0'.toNat) * 10 ^ rest.length + numeralValue rest := by
  rw [numeralValue, Nat.ofDigitChars_cons, Nat.ofDigitChars_eq_ofDigitChars_zero, Nat.mul_zero,
    Nat.zero_add, Nat.mul_comm]
  rfl

theorem numeralValue_append (front rest : List Char)
    : numeralValue (front ++ rest)
      = numeralValue front * 10 ^ rest.length + numeralValue rest := by
  rw [numeralValue, Nat.ofDigitChars_append, Nat.ofDigitChars_eq_ofDigitChars_zero, Nat.mul_comm]
  rfl

/-- Digits behind others only add to the value. -/
theorem numeralValue_front_le (front rest : List Char)
    : numeralValue front ≤ numeralValue (front ++ rest) := by
  rw [numeralValue_append]
  exact (Nat.le_mul_of_pos_right _ (Nat.pow_pos (by decide))).trans (Nat.le_add_right _ _)

theorem ten_mul_front_le (front : List Char) {rest : List Char} (more : rest ≠ [])
    : 10 * numeralValue front ≤ numeralValue (front ++ rest) := by
  have power : 10 ≤ 10 ^ rest.length := by
    have positive := List.length_pos_of_ne_nil more
    exact Nat.le_self_pow (by omega) 10
  calc 10 * numeralValue front
      = numeralValue front * 10 := Nat.mul_comm _ _
    _ ≤ numeralValue front * 10 ^ rest.length := Nat.mul_le_mul_left _ power
    _ ≤ numeralValue (front ++ rest) := by
        rw [numeralValue_append]
        exact Nat.le_add_right _ _

/-- A numeral stays below the power of its length, by induction on the digits. -/
theorem numeralValue_lt {digits : List Char} (numeral : IsNumeral digits)
    : numeralValue digits < 10 ^ digits.length := by
  induction digits with
  | nil => decide
  | cons digit rest ih =>
      have below := ih (fun other member => numeral other (List.mem_cons_of_mem _ member))
      have isDigit := Char.isDigit_iff_toNat.mp (numeral digit List.mem_cons_self)
      have digitBound : digit.toNat - '0'.toNat ≤ 9 := Nat.sub_le_sub_right isDigit.2 _
      calc numeralValue (digit :: rest)
          = (digit.toNat - '0'.toNat) * 10 ^ rest.length + numeralValue rest :=
            numeralValue_cons digit rest
        _ < 9 * 10 ^ rest.length + 10 ^ rest.length :=
            Nat.add_lt_add_of_le_of_lt (Nat.mul_le_mul_right _ digitBound) below
        _ = 10 ^ (digit :: rest).length := by
            rw [List.length_cons, Nat.pow_succ, Nat.mul_comm _ 10, ← Nat.succ_mul]

-----------------------------------------------------------------------------------------
-- Order
-----------------------------------------------------------------------------------------

/-- A higher digit outweighs what stands behind it. -/
theorem value_lt_of_lt {first second weight low high : Nat} (less : first < second)
    (bound : low < weight)
    : first * weight + low < second * weight + high := by
  calc first * weight + low
      < first * weight + weight := Nat.add_lt_add_left bound _
    _ = (first + 1) * weight := (Nat.succ_mul first weight).symm
    _ ≤ second * weight := Nat.mul_le_mul_right _ less
    _ ≤ second * weight + high := Nat.le_add_right _ _

/-- Numerals of one length are ordered like their values, by induction on the digits. -/
theorem numeral_lt_iff {left right : List Char} (same : left.length = right.length)
    (first : IsNumeral left) (second : IsNumeral right)
    : left < right ↔ numeralValue left < numeralValue right := by
  induction left generalizing right with
  | nil =>
      obtain rfl : right = [] := List.length_eq_zero_iff.mp same.symm
      simp
  | cons digit rest ih =>
      obtain ⟨other, others, rfl⟩ := List.exists_cons_of_length_eq_add_one same.symm
      have lengths : rest.length = others.length := Nat.succ.inj same
      have firstRest : IsNumeral rest :=
        fun value member => first value (List.mem_cons_of_mem _ member)
      have secondRest : IsNumeral others :=
        fun value member => second value (List.mem_cons_of_mem _ member)
      have firstDigit := Char.isDigit_iff_toNat.mp (first digit List.mem_cons_self)
      have secondDigit := Char.isDigit_iff_toNat.mp (second other List.mem_cons_self)
      have firstBound := numeralValue_lt firstRest
      have secondBound := numeralValue_lt secondRest
      rw [List.cons_lt_cons_iff, ih lengths firstRest secondRest, numeralValue_cons,
        numeralValue_cons, lengths]
      rw [lengths] at firstBound
      rcases Nat.lt_trichotomy digit.toNat other.toNat with less | equal | greater
      · have lower : digit.toNat - '0'.toNat < other.toNat - '0'.toNat := by omega
        exact iff_of_true (.inl less) (value_lt_of_lt lower firstBound)
      · obtain rfl : digit = other := Char.toNat_inj.mp equal
        simp
      · have lower : other.toNat - '0'.toNat < digit.toNat - '0'.toNat := by omega
        refine iff_of_false ?_ (Nat.lt_asymm (value_lt_of_lt lower secondBound))
        rintro (less | ⟨rfl, -⟩)
        · exact Nat.lt_asymm greater less
        · exact Nat.lt_irrefl _ greater

/-- Numerals of one length and one value are the same. -/
theorem numeral_eq_iff {left right : List Char} (same : left.length = right.length)
    (first : IsNumeral left) (second : IsNumeral right)
    : left = right ↔ numeralValue left = numeralValue right := by
  refine ⟨congrArg numeralValue, fun values => ?_⟩
  rcases lt_trichotomy left right with less | equal | greater
  · exact absurd values ((numeral_lt_iff same first second).mp less).ne
  · exact equal
  · exact absurd values ((numeral_lt_iff same.symm second first).mp greater).ne'

variable {α : Type*} [LinearOrder α]

/-- A text is behind another one of the length of its front also when it only goes on, by
induction on the other one.
-/
theorem lt_append_iff {left front : List α} (same : left.length = front.length) (rest : List α)
    : left < front ++ rest ↔ left < front ∨ left = front ∧ rest ≠ [] := by
  induction left generalizing front with
  | nil =>
      obtain rfl : front = [] := List.length_eq_zero_iff.mp same.symm
      cases rest <;> simp
  | cons value others ih =>
      obtain ⟨first, front, rfl⟩ := List.exists_cons_of_length_eq_add_one same.symm
      rw [List.cons_append, List.cons_lt_cons_iff, ih (Nat.succ.inj same),
        List.cons_lt_cons_iff, List.cons.injEq]
      tauto

/-- A text that goes on is ahead of another one only with its front, by induction on the other
one.
-/
theorem append_lt_iff {left front : List α} (same : left.length = front.length) (rest : List α)
    : front ++ rest < left ↔ front < left := by
  induction left generalizing front with
  | nil =>
      obtain rfl : front = [] := List.length_eq_zero_iff.mp same.symm
      simp
  | cons value others ih =>
      obtain ⟨first, front, rfl⟩ := List.exists_cons_of_length_eq_add_one same.symm
      rw [List.cons_append, List.cons_lt_cons_iff, ih (Nat.succ.inj same),
        List.cons_lt_cons_iff]

end Foundation
