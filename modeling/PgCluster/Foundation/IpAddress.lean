import PgCluster.Foundation.TextTools

/-! The texts that are IP addresses: four decimal octets, or groups of hexadecimal digits with
at most one gap, the last two of which may be written as octets.
-/

namespace Foundation

/-- At most three decimal digits, without a leading zero, up to 255. -/
def isOctet (digits : List Char) : Bool :=
  digits ≠ [] && digits.all Char.isDigit && digits.length ≤ 3
  && (digits.length = 1 || digits.head? ≠ some '0')
  && digits.foldl (fun value digit => 10 * value + (digit.toNat - '0'.toNat)) 0 ≤ 255

def isIpv4 (text : List Char) : Bool :=
  (text.splitOn '.').length = 4 && (text.splitOn '.').all isOctet

def isHexDigit (value : Char) : Bool :=
  value.isDigit || ('a' ≤ value && value ≤ 'f') || ('A' ≤ value && value ≤ 'F')

def isHextet (digits : List Char) : Bool :=
  digits ≠ [] && digits.all isHexDigit && digits.length ≤ 4

/-- The number of groups of 16 bits, none when one of the parts is none. -/
def groupCount : List (List Char) → Option Nat
  | [] => some 0
  | [last] => if isHextet last then some 1 else if isIpv4 last then some 2 else none
  | part :: rest => if isHextet part then (groupCount rest).map (· + 1) else none

/-- The parts between colons, none for the empty text. -/
def colonParts (text : List Char) : List (List Char) :=
  if text = [] then [] else text.splitOn ':'

/-- The texts around the first double colon. -/
def splitGap : List Char → Option (List Char × List Char)
  | ':' :: ':' :: rest => some ([], rest)
  | value :: rest => (splitGap rest).map (fun parts => (value :: parts.1, parts.2))
  | [] => none

/-- Eight groups, or at most seven around a gap. -/
def hasIpv6Groups (text : List Char) : Bool :=
  match splitGap text with
  | none => groupCount (colonParts text) = some 8
  | some (left, right) =>
      (colonParts left).all isHextet
      && (groupCount (colonParts right)).any (fun count => (colonParts left).length + count ≤ 7)

/-- The groups may be followed by a percent sign and a scope. -/
def isIpv6 (text : List Char) : Bool :=
  hasIpv6Groups (before '%' text)
  && ('%' ∉ text || (text.splitOn '%').length = 2 && text.getLast? ≠ some '%')

def isIpAddress (text : List Char) : Bool := isIpv4 text || isIpv6 text

example : isIpAddress "2001:db8::10.0.0.1".toList = true := by decide

/-- What stands in a joined text is the delimiter or stands in a part, by induction on the
parts.
-/
theorem mem_of_mem_intercalate {delimiter value : Char} {parts : List (List Char)}
    (member : value ∈ [delimiter].intercalate parts)
    : value = delimiter ∨ ∃ part ∈ parts, value ∈ part := by
  induction parts with
  | nil => simp [List.intercalate] at member
  | cons first rest ih =>
      cases rest with
      | nil =>
          have inside : value ∈ first := by simpa [List.intercalate] using member
          exact .inr ⟨first, List.mem_cons_self, inside⟩
      | cons second others =>
          have split : [delimiter].intercalate (first :: second :: others)
              = first ++ delimiter :: [delimiter].intercalate (second :: others) := by
            simp [List.intercalate]
          rw [split, List.mem_append, List.mem_cons] at member
          rcases member with inside | same | below
          · exact .inr ⟨first, List.mem_cons_self, inside⟩
          · exact .inl same
          · rcases ih below with same | ⟨part, listed, inside⟩
            · exact .inl same
            · exact .inr ⟨part, List.mem_cons_of_mem _ listed, inside⟩

/-- Four octets contain no colon; witness: every character is a dot or a digit. -/
theorem notMem_colon_of_isIpv4 {text : List Char} (ipv4 : isIpv4 text = true)
    : ':' ∉ text := by
  intro member
  have whole : ['.'].intercalate (text.splitOn '.') = text := List.intercalate_splitOn '.'
  rw [← whole] at member
  rcases mem_of_mem_intercalate member with same | ⟨octet, listed, inside⟩
  · simp at same
  · simp only [isIpv4, isOctet, Bool.and_eq_true, List.all_eq_true, decide_eq_true_eq] at ipv4
    have digit := (ipv4.2 octet listed).1.1.1.2 ':' inside
    simp [Char.isDigit] at digit

end Foundation
