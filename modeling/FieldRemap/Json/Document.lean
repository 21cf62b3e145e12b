/-
  FieldRemap.Json.Document — reading a document.

  A document is one value between blanks. Arrays and objects may be nested `maxDepth` deep.
  Reading stops at the first place where it cannot go on, which the draft keeps.
-/

import FieldRemap.Json.Numeral
import FieldRemap.Json.Spelling
import FieldRemap.Text.Utf8

namespace FieldRemap

/-- A value, and whether anything but blanks follows it. -/
structure Document where
  value : Draft
  isFollowed : Bool

namespace Document

def maxDepth : Nat := 127

def isBlank (c : Option Char) : Bool :=
  c == some ' ' || c == some '\n' || c == some '\t' || c == some '\r'

def dropBlanks (input : JsonInput) : JsonInput :=
  input.dropWhile isBlank

def readWord : (word : List Char) → JsonInput → Except JsonFault JsonInput
  | [], input => .ok input
  | _ :: _, [] => .error .truncated
  | letter :: word, c :: input => if c = some letter then readWord word input else .error .malformed

def word (value : Draft) (letters : String) (input : JsonInput) : Draft × Option JsonInput :=
  match readWord letters.toList input with
  | .ok rest => (value, some rest)
  | .error fault => (.broken false fault fault, none)

/-- Reads a number. A number that breaks off is malformed when it is passed over. -/
def number (input : JsonInput) : Draft × Option JsonInput :=
  match Numeral.read input with
  | .error fault => (.broken false fault .malformed, none)
  | .ok (numeral, rest) =>
    match numeral.toNumber? ((input.take (input.length - rest.length)).filterMap id) with
    | some value => (.number value, some rest)
    | none => (.unreadable, some rest)

def string (input : JsonInput) : Draft × Option JsonInput :=
  match SpelledText.read input with
  | .closed (.ok text) rest => (.text text, some rest)
  | .closed (.error _) rest => (.unreadable, some rest)
  | .broken read passed => (.broken true read passed, none)

def nested (room : Nat) (value : Draft) : Draft :=
  if room = 0 then .deep value else value

mutual

/-- Reads a value, `room` levels of nesting being left, and gives what follows it unless
    reading stops. -/
def readValue (fuel room : Nat) (input : JsonInput) : Draft × Option JsonInput :=
  match fuel with
  | 0 => (.absent, none)
  | fuel + 1 =>
    match dropBlanks input with
    | [] => (.absent, none)
    | none :: _ => (.stray, none)
    | some c :: rest =>
      if c = '"' then string rest
      else if c = '[' then
        let (items, unclosed, rest) := readItems fuel (room - 1) true rest
        (nested room (.array items unclosed), rest)
      else if c = '{' then
        let (members, unclosed, rest) := readMembers fuel (room - 1) true rest
        (nested room (.object members unclosed), rest)
      else if c = 'n' then word .null "ull" rest
      else if c = 't' then word (.bool true) "rue" rest
      else if c = 'f' then word (.bool false) "alse" rest
      else if c = '-' || c.isDigit then number (some c :: rest)
      else (.stray, none)

def readItems (fuel room : Nat) (isFirst : Bool) (input : JsonInput) :
    List Draft × Option JsonFault × Option JsonInput :=
  match fuel with
  | 0 => ([], some .truncated, none)
  | fuel + 1 =>
    match dropBlanks input with
    | [] => ([], some .truncated, none)
    | c :: rest =>
      if c = some ']' then ([], none, some rest)
      else if isFirst || c = some ',' then
        match readValue fuel room (if isFirst then c :: rest else rest) with
        | (item, none) => ([item], none, none)
        | (item, some rest) =>
          let (items, unclosed, rest) := readItems fuel room false rest
          (item :: items, unclosed, rest)
      else ([], some .malformed, none)

def readMembers (fuel room : Nat) (isFirst : Bool) (input : JsonInput) :
    List (Option (Except JsonFault String) × Draft) × Option JsonFault × Option JsonInput :=
  match fuel with
  | 0 => ([], some .truncated, none)
  | fuel + 1 =>
    match dropBlanks input with
    | [] => ([], some .truncated, none)
    | c :: rest =>
      if c = some '}' then ([], none, some rest)
      else if isFirst || c = some ',' then
        let input := if isFirst then c :: rest else rest
        match dropBlanks input with
        | some '"' :: rest =>
          match SpelledText.read rest with
          | .broken read passed => ([(some (.error read), .broken true read passed)], none, none)
          | .closed key rest =>
            match dropBlanks rest with
            | some ':' :: rest =>
              match readValue fuel room rest with
              | (value, none) => ([(some key, value)], none, none)
              | (value, some rest) =>
                let (members, unclosed, rest) := readMembers fuel room false rest
                ((some key, value) :: members, unclosed, rest)
            | [] => ([(some key, .absent)], none, none)
            | _ => ([(some key, .stray)], none, none)
        | input => ([(none, (readValue fuel room input).1)], none, none)
      else ([], some .malformed, none)

end

def ofInput (input : JsonInput) : Document :=
  match readValue (2 * input.length + 2) maxDepth input with
  | (value, none) => ⟨value, false⟩
  | (value, some rest) => ⟨value, !(dropBlanks rest).isEmpty⟩

def ofBytes (bytes : ByteArray) : Document :=
  ofInput (decodeUtf8 bytes)

def ofText (text : String) : Document :=
  ofInput (text.toList.map some)

def decode {α : Type} (document : Document) (decode : Draft → Except JsonFault α) : Except JsonFault α :=
  match decode document.value with
  | .error fault => .error fault
  | .ok value => if document.isFollowed then .error .malformed else .ok value

end Document

end FieldRemap
