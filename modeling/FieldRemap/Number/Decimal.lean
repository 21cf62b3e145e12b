/-
  FieldRemap.Number.Decimal — decimal text of binary numbers.

  A number is written with the fewest decimal digits that still round to it, and of those
  with the ones nearest to it. A notation says which of two equally near ones are taken, which
  numbers are written without an exponent, and how exponents and whole numbers look.
-/

import FieldRemap.Number.Binary

namespace FieldRemap

/-- Decimal digits `d₁d₂…` for `0.d₁d₂… * 10 ^ point`. -/
structure DecimalDigits where
  digits : List Char
  point : Int
  deriving DecidableEq, Repr

namespace DecimalDigits

def ofNat (n : Nat) (scale : Int) : DecimalDigits :=
  let digits := Nat.toDigits 10 n
  ⟨(digits.reverse.dropWhile (· == '0')).reverse, digits.length + scale⟩

/-- The place of the first digit of a ratio: the least `p` with `num / den < 10 ^ p`. -/
def leadingPlace (num den : Nat) : Int :=
  if den ≤ num then (Nat.toDigits 10 (num / den)).length
  else
    let length := (Nat.toDigits 10 (den / num)).length
    if Nat.pow 10 (length - 1) * num = den then 2 - (length : Int) else 1 - (length : Int)

/-- A point of the grid of multiples of `10 ^ scale` between `low` and `high`, the nearest to
    `num` when there are two; all three are numbers of units of `1 / den`. Of two equally near
    ones it is the even one if `tiesToEven`, and else the greater. -/
def onGrid? (tiesToEven : Bool) (low high num den : Nat) (isClosed : Bool) (scale : Int) :
    Option DecimalDigits :=
  let (up, down) := if 0 ≤ scale then (Nat.pow 10 scale.toNat, 1) else (1, Nat.pow 10 (-scale).toNat)
  -- a point `n` of the grid is `n * step` units of `1 / (den * down)`
  let step := den * up
  let below := num * down / step
  let fits := fun n =>
    let n := n * step
    if isClosed then low * down ≤ n && n ≤ high * down else low * down < n && n < high * down
  let distance := 2 * (num * down - below * step)
  let isBelow := distance < step || (tiesToEven && distance = step && below % 2 = 0)
  let nearer := if isBelow then below else below + 1
  let other := if nearer = below then below + 1 else below
  if fits nearer then some (ofNat nearer scale)
  else if fits other then some (ofNat other scale)
  else none

/-- The fewest digits that round to `significand * 2 ^ exponent`, a positive number. -/
def shortest (format : BinaryFormat) (tiesToEven : Bool) (significand : Nat) (exponent : Int) :
    DecimalDigits :=
  -- in quarters of a unit, to hold half the distance to the number below a power of two
  let (up, down) := powerOfTwo (exponent - 2)
  let num := 4 * significand * up
  let high := (4 * significand + 2) * up
  let isPower := significand == Nat.pow 2 (format.precision - 1) && format.leastExponent < exponent
  let low := (4 * significand - (if isPower then 1 else 2)) * up
  let place := leadingPlace num down
  let isClosed := significand % 2 == 0
  ((List.range 20).findSome? fun (count : Nat) =>
    onGrid? tiesToEven low high num down isClosed (place - (count : Int) - 1)).getD (ofNat 0 0)

end DecimalDigits

structure DecimalNotation where
  /-- Numbers whose first digit has a place in this range are written without an exponent. -/
  positional : Int → Bool
  /-- A whole number written without an exponent ends in `.0`. -/
  marksWhole : Bool
  /-- Of two equally near texts the one with an even digit is taken, not the greater one. -/
  tiesToEven : Bool
  /-- An exponent that is not negative has a plus. -/
  signsExponent : Bool

namespace DecimalNotation

def layOut (marksWhole : Bool) (decimal : DecimalDigits) : List Char :=
  let digits := decimal.digits
  if decimal.point ≤ 0 then
    '0' :: '.' :: List.replicate (-decimal.point).toNat '0' ++ digits
  else
    let point := decimal.point.toNat
    if digits.length ≤ point then
      digits ++ List.replicate (point - digits.length) '0' ++ (if marksWhole then ['.', '0'] else [])
    else digits.take point ++ '.' :: digits.drop point

def layOutScientific (signsExponent : Bool) (decimal : DecimalDigits) : List Char :=
  let exponent := decimal.point - 1
  let sign := if exponent < 0 then ['-'] else if signsExponent then ['+'] else []
  let exponentText := sign ++ Nat.toDigits 10 exponent.natAbs
  match decimal.digits with
  | [] => []
  | [digit] => digit :: 'e' :: exponentText
  | digit :: rest => digit :: '.' :: rest ++ 'e' :: exponentText

def writePositive (style : DecimalNotation) (format : BinaryFormat) (significand : Nat)
    (exponent : Int) : List Char :=
  let decimal := DecimalDigits.shortest format style.tiesToEven significand exponent
  if style.positional decimal.point then layOut style.marksWhole decimal
  else layOutScientific style.signsExponent decimal

def write (style : DecimalNotation) (format : BinaryFormat) : BinaryValue → List Char
  | .nan => "NaN".toList
  | .infinite negative => (if negative then ['-'] else []) ++ "inf".toList
  | .finite negative significand exponent =>
    (if negative then ['-'] else []) ++
      if significand = 0 then (if style.marksWhole then "0.0".toList else ['0'])
      else style.writePositive format significand exponent

end DecimalNotation

/-- The text of a number with a set count of decimals, the exact value being rounded and a tie
    going to the even digit. -/
def writeFixed (places : Nat) : BinaryValue → List Char
  | .nan => "NaN".toList
  | .infinite negative => (if negative then ['-'] else []) ++ "inf".toList
  | .finite negative significand exponent =>
    let (up, down) := powerOfTwo exponent
    let unit := Nat.pow 10 places
    let scaled := roundRatio (significand * up * unit) down
    let whole := Nat.toDigits 10 (scaled / unit)
    let fraction := Nat.toDigits 10 (scaled % unit)
    (if negative then ['-'] else []) ++ whole ++
      if places = 0 then [] else '.' :: List.replicate (places - fraction.length) '0' ++ fraction

end FieldRemap
