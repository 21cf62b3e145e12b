/-
  FieldRemap.Number.Binary — numbers of a fixed number of bits.

  A whole number takes 64 bits. A floating-point format says how many bits a significand and
  an exponent take. A pattern of bits is a sign, a biased exponent and a fraction. `value` says
  which number a pattern is, and `nearest` which pattern a ratio is rounded to: the nearest
  number, and of two the one whose significand is even.
-/

namespace FieldRemap

def wordLimit : Nat := 0x10000000000000000

/-- How many numbers of 64 bits with a sign are negative. -/
def signedWordLimit : Nat := 0x8000000000000000

structure BinaryFormat where
  /-- The bits of a significand, its leading one included. -/
  precision : Nat
  exponentBits : Nat
  deriving DecidableEq, Repr

inductive BinaryValue where
  | nan
  | infinite (negative : Bool)
  /-- `significand * 2 ^ exponent`. -/
  | finite (negative : Bool) (significand : Nat) (exponent : Int)
  deriving DecidableEq, Repr

/-- A quotient rounded to the nearest whole number, a tie to the even one. -/
def roundRatio (num den : Nat) : Nat :=
  let quotient := num / den
  let rest := num % den
  if 2 * rest < den then quotient
  else if den < 2 * rest then quotient + 1
  else quotient + quotient % 2

def powerOfTwo (exponent : Int) : Nat × Nat :=
  if 0 ≤ exponent then (Nat.pow 2 exponent.toNat, 1) else (1, Nat.pow 2 (-exponent).toNat)

namespace BinaryFormat

def single : BinaryFormat := ⟨24, 8⟩

def double : BinaryFormat := ⟨53, 11⟩

def leastExponent (format : BinaryFormat) : Int :=
  3 - (Nat.pow 2 (format.exponentBits - 1) : Int) - format.precision

def signBit (format : BinaryFormat) : Nat :=
  Nat.pow 2 (format.precision - 1 + format.exponentBits)

def infinity (format : BinaryFormat) : Nat :=
  (Nat.pow 2 format.exponentBits - 1) * Nat.pow 2 (format.precision - 1)

def notNumber (format : BinaryFormat) : Nat :=
  format.infinity + Nat.pow 2 (format.precision - 2)

def value (format : BinaryFormat) (bits : Nat) : BinaryValue :=
  let unit := Nat.pow 2 (format.precision - 1)
  let negative := bits / format.signBit % 2 == 1
  let magnitude := bits % format.signBit
  let fraction := magnitude % unit
  let biased := magnitude / unit
  if format.infinity ≤ magnitude then if fraction = 0 then .infinite negative else .nan
  else if biased = 0 then .finite negative fraction format.leastExponent
  else .finite negative (unit + fraction) (format.leastExponent + biased - 1)

def nearest (format : BinaryFormat) (num den : Nat) : Nat :=
  if num = 0 then 0
  else
    let unit := Nat.pow 2 (format.precision - 1)
    let guess : Int := (num.log2 : Int) - den.log2 - (format.precision - 1)
    let (up, down) := powerOfTwo guess
    let exponent := if num * down < unit * (den * up) then guess - 1 else guess
    let exponent := max exponent format.leastExponent
    let (up, down) := powerOfTwo exponent
    let significand := roundRatio (num * down) (den * up)
    min ((exponent - format.leastExponent).toNat * unit + significand) format.infinity

def signed (format : BinaryFormat) (negative : Bool) (magnitude : Nat) : Nat :=
  if negative then format.signBit + magnitude else magnitude

/-- The pattern of the number nearest to `significand * 10 ^ scale`. -/
def ofDecimal (format : BinaryFormat) (significand : Nat) (scale : Int) : Nat :=
  let digits : Int := (Nat.toDigits 10 significand).length
  if significand = 0 || digits + scale < -400 then 0
  else if 400 < digits + scale then format.infinity
  else if 0 ≤ scale then format.nearest (significand * Nat.pow 10 scale.toNat) 1
  else format.nearest significand (Nat.pow 10 (-scale).toNat)

def convert (source target : BinaryFormat) (bits : Nat) : Nat :=
  match source.value bits with
  | .nan => target.notNumber
  | .infinite negative => target.signed negative target.infinity
  | .finite negative significand exponent =>
    let (up, down) := powerOfTwo exponent
    target.signed negative (target.nearest (significand * up) down)

end BinaryFormat

end FieldRemap
