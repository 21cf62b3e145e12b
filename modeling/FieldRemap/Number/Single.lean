/-
  FieldRemap.Number.Single — 32-bit binary floating-point numbers.

  A number is its pattern of bits. Two numbers compare by value: what is not a number
  compares with nothing, and zero has two patterns.
-/

import FieldRemap.Number.Decimal
import FieldRemap.Text.Word

namespace FieldRemap

structure Single where
  bits : UInt32
  deriving DecidableEq, Repr

namespace Single

def ofBits (bits : Nat) : Single := ⟨UInt32.ofNat bits⟩

def ofDouble (bits : Nat) : Single :=
  ofBits (BinaryFormat.double.convert .single bits)

def ofFloat (x : Float) : Single :=
  ofDouble x.toBits.toNat

def value (x : Single) : BinaryValue :=
  BinaryFormat.single.value x.bits.toNat

def isNumber (x : Single) : Bool :=
  x.value != .nan

/-- A whole number that orders the numbers as their values do. -/
def order (x : Single) : Int :=
  let magnitude : Int := (x.bits.toNat % BinaryFormat.single.signBit : Nat)
  if BinaryFormat.single.signBit ≤ x.bits.toNat then -magnitude else magnitude

def le (a b : Single) : Bool :=
  a.isNumber && b.isNumber && a.order ≤ b.order

def zero : Single := ⟨0⟩

def one : Single := ⟨0x3F800000⟩

/-- Digits without an exponent; a whole number shows no fraction. -/
def plain : DecimalNotation := ⟨fun _ => true, false, false, false⟩

def text (x : Single) : String :=
  String.ofList (plain.write .single x.value)

def fixedText (places : Nat) (x : Single) : String :=
  String.ofList (writeFixed places x.value)

def widen (x : Single) : Nat :=
  BinaryFormat.single.convert .double x.bits.toNat

def parseExponent? (chars : List Char) : Option Int :=
  match chars with
  | [] => some 0
  | mark :: rest =>
    if mark = 'e' || mark = 'E' then
      let (negative, digits) :=
        match rest with
        | '-' :: digits => (true, digits)
        | '+' :: digits => (false, digits)
        | digits => (false, digits)
      if !digits.isEmpty && digits.all Char.isDigit then
        let n : Int := Nat.ofDigitChars 10 digits 0
        some (if negative then -n else n)
      else none
    else none

/-- The magnitude of a numeral without a sign: digits with a point somewhere, or no point, and
    an exponent; or a word. -/
def parseMagnitude? (chars : List Char) : Option Nat :=
  match String.ofList (chars.map Char.toLower) with
  | "inf" | "infinity" => some BinaryFormat.single.infinity
  | "nan" => some BinaryFormat.single.notNumber
  | _ =>
    let whole := chars.takeWhile Char.isDigit
    let rest := chars.dropWhile Char.isDigit
    let (fraction, rest) :=
      match rest with
      | '.' :: rest => (rest.takeWhile Char.isDigit, rest.dropWhile Char.isDigit)
      | rest => ([], rest)
    if whole.isEmpty && fraction.isEmpty then none
    else
      (parseExponent? rest).map fun exponent =>
        BinaryFormat.single.ofDecimal (Nat.ofDigitChars 10 (whole ++ fraction) 0)
          (exponent - fraction.length)

def parse? (text : String) : Option Single :=
  let (negative, chars) :=
    match text.toList with
    | '-' :: chars => (true, chars)
    | '+' :: chars => (false, chars)
    | chars => (false, chars)
  (parseMagnitude? chars).map fun magnitude =>
    ofBits (BinaryFormat.single.signed negative magnitude)

end Single

end FieldRemap
