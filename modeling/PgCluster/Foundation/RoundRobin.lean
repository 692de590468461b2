import Mathlib.Data.List.Rotate
import Mathlib.Data.Nat.ModEq

/-! Round robin over a list: the same number of turns for each entry, the list rotated by one
behind them.
-/

namespace Foundation

variable {α : Type*}

/-- The entry whose turn it is, with the given number of turns for each. -/
def turnOf (entries : List α) (turns : Nat) (count : Nat) : Option α :=
  entries[count / turns % entries.length]?

/-- The front of a list that has been rotated has the turn. -/
theorem head?_rotate_eq_turnOf {entries : List α} (nonempty : entries ≠ []) {turns used : Nat}
    (few : used < turns) (rounds : Nat)
    : (entries.rotate rounds).head? = turnOf entries turns (rounds * turns + used) := by
  have positive : 0 < entries.length := List.length_pos_iff.mpr nonempty
  have count : (rounds * turns + used) / turns = rounds := by
    rw [Nat.mul_comm, Nat.mul_add_div (by omega), Nat.div_eq_of_lt few, Nat.add_zero]
  rw [turnOf, count, ← List.rotate_mod, List.head?_rotate (Nat.mod_lt _ positive)]

/-- Every residue has a representative among as many numbers in a row. -/
theorem exists_mod_eq {modulus residue : Nat} (small : residue < modulus) (first : Nat)
    : ∃ number, first ≤ number ∧ number < first + modulus ∧ number % modulus = residue := by
  have parts := Nat.div_add_mod first modulus
  have below := Nat.mod_lt first (Nat.zero_lt_of_lt small)
  have reached : first + (residue + modulus - first % modulus)
      = residue + modulus * (first / modulus + 1) := by
    rw [Nat.mul_succ]
    omega
  refine ⟨first + (residue + modulus - first % modulus) % modulus, by omega, ?_, ?_⟩
  · have step := Nat.mod_lt (residue + modulus - first % modulus) (Nat.zero_lt_of_lt small)
    omega
  · rw [Nat.add_mod_mod, reached, Nat.add_mul_mod_self_left, Nat.mod_eq_of_lt small]

/-- Among as many turns in a row as all entries have together, every entry has one; witness:
the first turn of its next round, or the very first of the row.
-/
theorem exists_turnOf {entries : List α} {turns : Nat} (positive : 0 < turns) {entry : α}
    (member : entry ∈ entries) (first : Nat)
    : ∃ count,
        first ≤ count ∧ count < first + entries.length * turns
        ∧ turnOf entries turns count = some entry := by
  obtain ⟨index, found⟩ := List.mem_iff_getElem?.mp member
  have inside : index < entries.length := (List.getElem?_eq_some_iff.mp found).1
  obtain ⟨round, from_, until_, same⟩ := exists_mod_eq inside (first / turns)
  have rounds : (round : Nat) * turns < first + entries.length * turns := by
    have bound : round * turns < (first / turns + entries.length) * turns :=
      Nat.mul_lt_mul_of_pos_right until_ positive
    have floor := Nat.div_mul_le_self first turns
    rw [Nat.add_mul] at bound
    omega
  by_cases running : round = first / turns
  · refine ⟨first, le_refl first, ?_, ?_⟩
    · have some_ : 0 < entries.length * turns := Nat.mul_pos (Nat.zero_lt_of_lt inside) positive
      omega
    · rw [turnOf, ← running, same, found]
  · have later : first ≤ round * turns := by
      have next : first / turns + 1 ≤ round := by omega
      have bound := Nat.mul_le_mul_right turns next
      have ceiling := Nat.lt_div_mul_add positive (a := first)
      rw [Nat.add_mul, Nat.one_mul] at bound
      omega
    refine ⟨round * turns, later, rounds, ?_⟩
    rw [turnOf, Nat.mul_div_cancel _ positive, same, found]

end Foundation
