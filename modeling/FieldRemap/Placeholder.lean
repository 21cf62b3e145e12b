/-
  FieldRemap.Placeholder — the tokens that stand for field names in a template.

  A token is two underscores, decimal digits and two underscores. The digits are kept as
  written, so `__1__` and `__01__` are two tokens of one index. Tokens are ordered by index
  and then by their text.
-/

import FieldRemap.Number.Binary
import FieldRemap.Text.Quoted

namespace FieldRemap

/-- A placeholder token, held as the digits between its underscores. -/
structure Placeholder where
  digits : List Char
  digits_ne_nil : digits ≠ []
  isDigit_of_mem : ∀ c ∈ digits, c.isDigit = true
  deriving DecidableEq

namespace Placeholder

def index (token : Placeholder) : Nat :=
  Nat.ofDigitChars 10 token.digits 0

def chars (token : Placeholder) : List Char :=
  '_' :: '_' :: token.digits ++ ['_', '_']

def text (token : Placeholder) : String :=
  String.ofList token.chars

/-- The token of an index, written without leading zeros. -/
def ofIndex (index : Nat) : Placeholder where
  digits := Nat.toDigits 10 index
  digits_ne_nil := Nat.toDigits_ne_nil
  isDigit_of_mem := fun _ h => Nat.isDigit_of_mem_toDigits (by decide) (by decide) h

/-- One more than the greatest index a token may have. -/
def indexLimit : Nat := wordLimit

def inner? : List Char → Option (List Char)
  | '_' :: '_' :: rest =>
    match rest.reverse with
    | '_' :: '_' :: inner => some inner.reverse
    | _ => none
  | _ => none

/-- Reads a token: digits between double underscores, their number below `indexLimit`. -/
def parse? (text : String) : Option Placeholder :=
  match inner? text.toList with
  | none | some [] => none
  | some (first :: rest) =>
    if decimal : (first :: rest).all Char.isDigit = true then
      let token : Placeholder :=
        ⟨first :: rest, List.cons_ne_nil first rest, List.all_eq_true.mp decimal⟩
      if token.index < indexLimit then some token else none
    else none

def refusal (text : String) : String :=
  s!"invalid placeholder token: {quoteText text}"

/-- Tokens by index, those of one index by text. -/
def le (a b : Placeholder) : Bool :=
  a.index < b.index || (a.index == b.index && a.text ≤ b.text)

def sortDistinct (tokens : List Placeholder) : List Placeholder :=
  (tokens.mergeSort le).eraseReps

end Placeholder

end FieldRemap
