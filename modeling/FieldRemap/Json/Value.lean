/-
  FieldRemap.Json.Value — JSON values and the two ways they are written.

  An object keeps its members as they are listed. Compact text has no blanks; laid-out text
  puts each item and member on a line of its own, indented by two blanks a level.
-/

import FieldRemap.Text.Escape

namespace FieldRemap

/-- A number: a natural number, the negative of one, or any other numeral as it is written. -/
inductive JsonNumber where
  | natural (n : Nat)
  | negative (n : Nat)
  | numeral (text : List Char)
  deriving DecidableEq, Repr

inductive Json where
  | null
  | bool (value : Bool)
  | number (value : JsonNumber)
  | text (value : String)
  | array (items : List Json)
  | object (members : List (String × Json))
  deriving Repr

namespace JsonNumber

def print : JsonNumber → List Char
  | .natural n => Nat.toDigits 10 n
  | .negative n => '-' :: Nat.toDigits 10 n
  | .numeral text => text

end JsonNumber

namespace Json

instance : Inhabited Json := ⟨.null⟩

def printText (text : String) : List Char :=
  '"' :: encodeName text.toList ++ ['"']

def printBool (value : Bool) : List Char :=
  if value then "true".toList else "false".toList

mutual

def print : Json → List Char
  | .null => "null".toList
  | .bool value => printBool value
  | .number value => value.print
  | .text value => printText value
  | .array items => '[' :: printItems items
  | .object members => '{' :: printMembers members

def printItems : List Json → List Char
  | [] => [']']
  | [item] => print item ++ [']']
  | item :: rest => print item ++ ',' :: printItems rest

def printMembers : List (String × Json) → List Char
  | [] => ['}']
  | [(key, value)] => printText key ++ ':' :: print value ++ ['}']
  | (key, value) :: rest => printText key ++ ':' :: print value ++ ',' :: printMembers rest

end

def newLine (level : Nat) : List Char :=
  '\n' :: List.replicate (2 * level) ' '

mutual

/-- A value laid out on lines, its own level being `level`. -/
def layOut (level : Nat) : Json → List Char
  | .null => "null".toList
  | .bool value => printBool value
  | .number value => value.print
  | .text value => printText value
  | .array [] => ['[', ']']
  | .array items => '[' :: layOutItems level items
  | .object [] => ['{', '}']
  | .object members => '{' :: layOutMembers level members

def layOutItems (level : Nat) : List Json → List Char
  | [] => [']']
  | [item] => newLine (level + 1) ++ layOut (level + 1) item ++ newLine level ++ [']']
  | item :: rest => newLine (level + 1) ++ layOut (level + 1) item ++ ',' :: layOutItems level rest

def layOutMembers (level : Nat) : List (String × Json) → List Char
  | [] => ['}']
  | [(key, value)] =>
    newLine (level + 1) ++ printText key ++ ':' :: ' ' :: layOut (level + 1) value ++ newLine level ++ ['}']
  | (key, value) :: rest =>
    newLine (level + 1) ++ printText key ++ ':' :: ' ' :: layOut (level + 1) value ++
      ',' :: layOutMembers level rest

end

def compact (value : Json) : String :=
  String.ofList value.print

def pretty (value : Json) : String :=
  String.ofList (value.layOut 0)

def get? (value : Json) (key : String) : Option Json :=
  match value with
  | .object members => (members.find? (·.1 == key)).map (·.2)
  | _ => none

end Json

end FieldRemap
