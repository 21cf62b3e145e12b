/-
  FieldRemap.Json.Numeral — JSON's grammar of numbers.

  An optional minus, digits without a leading zero, an optional fraction and an optional
  exponent. A whole numeral in the range of 64-bit integers is a whole number; any other
  is kept as it is written. Its value is that of a number of 64 bits times a power of ten, the
  digits behind the first nineteen or twenty being ignored.
-/

import FieldRemap.Json.Draft
import FieldRemap.Number.Binary

namespace FieldRemap

structure Numeral where
  negative : Bool
  whole : List Char
  fraction : List Char
  exponent : Option (Bool × List Char)
  isWhole : Bool
  deriving DecidableEq, Repr

namespace Numeral

def power (numeral : Numeral) : Int :=
  match numeral.exponent with
  | none => 0
  | some (true, digits) => -(Nat.ofDigitChars 10 digits 0 : Int)
  | some (false, digits) => (Nat.ofDigitChars 10 digits 0 : Int)

/-- A number with digits behind it, as far as it stays below `2 ^ 64`, and how many digits
    are left. -/
def leading (start : Nat) (digits : List Char) : Nat × Nat :=
  digits.foldl (fun (n, left) digit =>
    let next := 10 * n + (digit.toNat - '0'.toNat)
    if left = 0 && next < wordLimit then (next, 0) else (n, left + 1)) (start, 0)

/-- The digits that count, as a whole number, and the power of ten it is multiplied by. -/
def significand (numeral : Numeral) : Nat × Int :=
  let (n, left) := leading 0 numeral.whole
  let (n, ignored) := leading n numeral.fraction
  (n, numeral.power + left + ignored - numeral.fraction.length)

def scaleDouble (bits num den : Nat) : Nat :=
  match BinaryFormat.double.value bits with
  | .finite _ significand exponent =>
    let (up, down) := powerOfTwo exponent
    BinaryFormat.double.nearest (significand * up * num) (down * den)
  | _ => bits

/-- The magnitude of a numeral in 64 bits: its digits rounded, then multiplied or divided by
    the rounded power of ten, and rounded again. -/
def magnitude (numeral : Numeral) : Nat :=
  let format := BinaryFormat.double
  let (n, scale) := numeral.significand
  if n = 0 then 0
  else if scale < -308 then format.ofDecimal n scale
  else if 308 < scale then format.infinity
  else
    match format.value (format.ofDecimal 1 scale.natAbs) with
    | .finite _ significand exponent =>
      let (up, down) := powerOfTwo exponent
      if 0 ≤ scale then scaleDouble (format.nearest n 1) (significand * up) down
      else scaleDouble (format.nearest n 1) down (significand * up)
    | _ => format.infinity

def toDouble? (numeral : Numeral) : Option Nat :=
  let format := BinaryFormat.double
  let magnitude := numeral.magnitude
  if magnitude = format.infinity then none else some (format.signed numeral.negative magnitude)

def toNumber? (numeral : Numeral) (text : List Char) : Option JsonNumber :=
  let n := Nat.ofDigitChars 10 numeral.whole 0
  if numeral.isWhole && !numeral.negative && n < wordLimit then some (.natural n)
  else if numeral.isWhole && numeral.negative && 0 < n && n ≤ signedWordLimit then some (.negative n)
  else numeral.toDouble?.map fun _ => .numeral text

def takeDigits (input : List (Option Char)) : List Char × List (Option Char) :=
  ((input.takeWhile (·.any Char.isDigit)).filterMap id, input.dropWhile (·.any Char.isDigit))

def digitFault (input : List (Option Char)) : JsonFault :=
  if input.isEmpty then .truncated else .malformed

def readExponent (input : List (Option Char)) :
    Except JsonFault (Option (Bool × List Char) × List (Option Char)) :=
  match input with
  | some mark :: rest =>
    if mark = 'e' || mark = 'E' then
      let (negative, rest) :=
        match rest with
        | some '-' :: rest => (true, rest)
        | some '+' :: rest => (false, rest)
        | rest => (false, rest)
      let (digits, rest) := takeDigits rest
      if digits.isEmpty then .error (digitFault rest) else .ok (some (negative, digits), rest)
    else .ok (none, input)
  | _ => .ok (none, input)

def read (input : List (Option Char)) : Except JsonFault (Numeral × List (Option Char)) :=
  let (negative, input) :=
    match input with
    | some '-' :: rest => (true, rest)
    | _ => (false, input)
  let (whole, rest) := takeDigits input
  match whole with
  | [] => .error (digitFault rest)
  | '0' :: _ :: _ => .error .malformed
  | _ =>
    match rest with
    | some '.' :: rest =>
      let (fraction, rest) := takeDigits rest
      if fraction.isEmpty then .error (digitFault rest)
      else
        (readExponent rest).map fun (exponent, rest) =>
          ({ negative, whole, fraction, exponent, isWhole := false }, rest)
    | rest =>
      (readExponent rest).map fun (exponent, rest) =>
        ({ negative, whole, fraction := [], exponent, isWhole := exponent.isNone }, rest)

end Numeral

end FieldRemap
