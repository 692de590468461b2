import Mathlib.Algebra.Ring.Nat
import Mathlib.Data.List.Induction

/-! Unsigned numbers as bytes, the most significant byte first. -/

namespace Foundation

abbrev Bytes := List UInt8

namespace BigEndian

/-- The number of the given width; a number that needs more bytes loses its first ones. -/
def toBytes : Nat → Nat → Bytes
  | 0, _ => []
  | width + 1, number => toBytes width (number / 256) ++ [UInt8.ofNat number]

def ofBytes (bytes : Bytes) : Nat :=
  bytes.foldl (fun number byte => number * 256 + byte.toNat) 0

@[simp] theorem length_toBytes (width number : Nat) : (toBytes width number).length = width := by
  induction width generalizing number with
  | zero => rfl
  | succ width ih => simp [toBytes, ih]

@[simp] theorem ofBytes_nil : ofBytes [] = 0 := rfl

@[simp] theorem ofBytes_concat (bytes : Bytes) (byte : UInt8)
    : ofBytes (bytes ++ [byte]) = ofBytes bytes * 256 + byte.toNat := by
  simp [ofBytes]

/-- A number that fits its width is read back, by induction on the width. -/
theorem ofBytes_toBytes {width number : Nat} (fits : number < 256 ^ width)
    : ofBytes (toBytes width number) = number := by
  induction width generalizing number with
  | zero =>
      have zero : number = 0 := by simpa using fits
      rw [zero]
      rfl
  | succ width ih =>
      have less : number / 256 < 256 ^ width := by
        apply Nat.div_lt_of_lt_mul
        rw [Nat.mul_comm, ← Nat.pow_succ]
        exact fits
      rw [toBytes, ofBytes_concat, ih less, UInt8.toNat_ofNat']
      omega

/-- Bytes are the digits of the number they make, by induction from their end. -/
theorem toBytes_ofBytes (bytes : Bytes) : toBytes bytes.length (ofBytes bytes) = bytes := by
  induction bytes using List.reverseRecOn with
  | nil => rfl
  | append_singleton bytes byte ih =>
      have small : byte.toNat < 256 := byte.toNat_lt
      have quotient : (ofBytes bytes * 256 + byte.toNat) / 256 = ofBytes bytes := by omega
      have digit : UInt8.ofNat (ofBytes bytes * 256 + byte.toNat) = byte := by
        apply UInt8.toNat_inj.mp
        rw [UInt8.toNat_ofNat']
        omega
      rw [List.length_append, List.length_singleton, ofBytes_concat, toBytes, quotient, digit,
        ih]

/-- By induction from the end of the bytes. -/
theorem ofBytes_lt (bytes : Bytes) : ofBytes bytes < 256 ^ bytes.length := by
  induction bytes using List.reverseRecOn with
  | nil => simp
  | append_singleton bytes byte ih =>
      have small : byte.toNat < 256 := byte.toNat_lt
      rw [ofBytes_concat, List.length_append, List.length_singleton, Nat.pow_succ]
      omega

/-- The bytes of a number, unless it does not fit. -/
def pack (width number : Nat) : Option Bytes :=
  if number < 256 ^ width then some (toBytes width number) else none

/-- The number at the front of the data, unless the data is too short. -/
def unpackFrom (width : Nat) (data : Bytes) : Option Nat :=
  if data.length < width then none else some (ofBytes (data.take width))

/-- In two's complement. -/
def packInt (width : Nat) (number : Int) : Option Bytes :=
  if -((256 ^ width / 2 : Nat) : Int) ≤ number ∧ number < (256 ^ width / 2 : Nat) then
    some (toBytes width
      (if number < 0 then (number + (256 ^ width : Nat)).toNat else number.toNat))
  else none

def toSigned (width number : Nat) : Int :=
  if number < 256 ^ width / 2 then number else (number : Int) - (256 ^ width : Nat)

def unpackIntFrom (width : Nat) (data : Bytes) : Option Int :=
  (unpackFrom width data).map (toSigned width)

variable {width : Nat} {bytes : Bytes}

theorem pack_eq_some {number : Nat} (packed : pack width number = some bytes)
    : number < 256 ^ width ∧ bytes = toBytes width number := by
  unfold pack at packed
  split at packed
  next fits => exact ⟨fits, (Option.some.inj packed).symm⟩
  next => contradiction

theorem length_of_pack {number : Nat} (packed : pack width number = some bytes)
    : bytes.length = width := by
  rw [(pack_eq_some packed).2, length_toBytes]

theorem ofBytes_of_pack {number : Nat} (packed : pack width number = some bytes)
    : ofBytes bytes = number := by
  obtain ⟨fits, rfl⟩ := pack_eq_some packed
  exact ofBytes_toBytes fits

theorem unpackFrom_append (front more : Bytes)
    : unpackFrom front.length (front ++ more) = some (ofBytes front) := by
  unfold unpackFrom
  rw [if_neg (by simp), List.take_left]

/-- What was packed is read back, whatever follows. -/
theorem unpackFrom_pack {number : Nat} (packed : pack width number = some bytes)
    (more : Bytes)
    : unpackFrom width (bytes ++ more) = some number := by
  rw [← ofBytes_of_pack packed, ← unpackFrom_append bytes more, length_of_pack packed]

theorem length_of_packInt {number : Int} (packed : packInt width number = some bytes)
    : bytes.length = width := by
  unfold packInt at packed
  split at packed
  · rw [← Option.some.inj packed, length_toBytes]
  · contradiction

theorem unpackIntFrom_packInt {number : Int} (packed : packInt width number = some bytes)
    (more : Bytes)
    : unpackIntFrom width (bytes ++ more) = some number := by
  have length := length_of_packInt packed
  unfold packInt at packed
  split at packed
  next bounds =>
      rw [unpackIntFrom, ← length, unpackFrom_append, Option.map_some, length,
        ← Option.some.inj packed]
      generalize size : 256 ^ width = whole at bounds
      have read {value : Nat} (less : value < whole)
          : ofBytes (toBytes width value) = value :=
        ofBytes_toBytes (by rw [size]; exact less)
      congr 1
      unfold toSigned
      rw [size]
      split
      next negative =>
          rw [read (by omega)]
          split <;> omega
      next nonnegative =>
          rw [read (by omega)]
          split <;> omega
  next => contradiction

/-- A number from zero on that fits with a sign is packed as without one. -/
theorem packInt_of_lt {number : Nat} (small : number < 256 ^ width / 2)
    : packInt width (number : Int) = some (toBytes width number) := by
  have nonnegative : ¬ (number : Int) < 0 := by omega
  rw [packInt, if_pos (by omega), if_neg nonnegative, Int.toNat_natCast]

theorem pack_of_packInt {number : Nat} (packed : packInt width number = some bytes)
    : pack width number = some bytes := by
  unfold packInt at packed
  split at packed
  next bounds =>
      have less : number < 256 ^ width := by omega
      have nonnegative : ¬ (number : Int) < 0 := by omega
      rw [pack, if_pos less, ← packed, if_neg nonnegative, Int.toNat_natCast]
  next => contradiction

end BigEndian

end Foundation
