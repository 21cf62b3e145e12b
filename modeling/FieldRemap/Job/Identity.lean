/-
  FieldRemap.Job.Identity — the identities of jobs.

  An identity is 32 hexadecimal digits. It is written in five groups; it may be read from
  the groups, alone, in braces or behind a name space, or from the digits without groups.
-/

import FieldRemap.Text.Number

namespace FieldRemap

structure JobId where
  digits : List (Fin 16)
  length_eq : digits.length = 32
  deriving DecidableEq

namespace JobId

def groups : List Nat := [8, 4, 4, 4, 12]

def hyphenate : List Nat → List Char → List Char
  | [], _ => []
  | [length], chars => chars.take length
  | length :: rest, chars => chars.take length ++ '-' :: hyphenate rest (chars.drop length)

def ungroup? : List Nat → List Char → Option (List Char)
  | [], chars => if chars.isEmpty then some [] else none
  | [length], chars => if chars.length = length then some chars else none
  | length :: rest, chars =>
    match chars.drop length with
    | '-' :: others => (ungroup? rest others).map (chars.take length ++ ·)
    | _ => none

def digit? (c : Char) : Option (Fin 16) :=
  (hexValue? c).map (Fin.ofNat 16)

def ofDigits? (chars : List Char) : Option JobId :=
  match chars.mapM digit? with
  | none => none
  | some digits => if h : digits.length = 32 then some ⟨digits, h⟩ else none

/-- The groups that an identity is read from, without what surrounds them. -/
def bare (chars : List Char) : List Char :=
  match chars with
  | '\x7b' :: rest =>
    match rest.reverse with
    | '\x7d' :: inner => inner.reverse
    | _ => chars
  | _ => if (chars.take 9).map Char.toLower = "urn:uuid:".toList then chars.drop 9 else chars

def parse? (text : String) : Option JobId :=
  let chars := text.toList
  match ungroup? groups (bare chars) with
  | some digits => ofDigits? digits
  | none => ofDigits? chars

def text (id : JobId) : String :=
  String.ofList (hyphenate groups (id.digits.map (fun digit => hexDigit digit.val)))

/-- The identity whose digits spell a number, counted modulo the number of identities. -/
def ofNat (n : Nat) : JobId where
  digits := (List.range 32).reverse.map (fun i => Fin.ofNat 16 (n / Nat.pow 16 i))
  length_eq := by simp

/-- The identity with random digits; two of them say that the others are random. -/
def ofRandom (n : Nat) : JobId :=
  let id := ofNat n
  let variant := 8 + (id.digits.getD 16 0).val % 4
  { digits := (id.digits.set 12 4).set 16 (Fin.ofNat 16 variant)
    length_eq := by simp [id.length_eq] }

end JobId

end FieldRemap
