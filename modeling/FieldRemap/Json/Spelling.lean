/-
  FieldRemap.Json.Spelling — how the inside of a string spells its characters.

  A string that is read has its escapes decoded: a unit of four hexadecimal digits is a
  character, or, as a high surrogate, half of one whose other half has to follow. A string
  that is passed over only has to be formed like one.
-/

import FieldRemap.Json.Draft
import FieldRemap.Text.Number

namespace FieldRemap

/-- A document's characters, `none` for a byte that belongs to no character. -/
abbrev JsonInput := List (Option Char)

def JsonInput.byteLength (input : JsonInput) : Nat :=
  input.foldl (fun length c => length + (c.map Char.utf8Size).getD 1) 0

namespace Spelling

def unit (input : JsonInput) : Except JsonFault Nat :=
  if JsonInput.byteLength (input.take 4) < 4 then .error .truncated
  else
    match input with
    | some a :: some b :: some c :: some d :: _ =>
      match hexNumber? [a, b, c, d] with
      | some n => .ok n
      | none => .error .malformed
    | _ => .error .malformed

def simpleEscape? (c : Char) : Option Char :=
  if c = '"' then some '"'
  else if c = '\\' then some '\\'
  else if c = '/' then some '/'
  else if c = 'b' then some '\x08'
  else if c = 'f' then some '\x0c'
  else if c = 'n' then some '\n'
  else if c = 'r' then some '\r'
  else if c = 't' then some '\t'
  else none

def isHighSurrogate (n : Nat) : Bool := 0xD800 ≤ n && n ≤ 0xDBFF

def isLowSurrogate (n : Nat) : Bool := 0xDC00 ≤ n && n ≤ 0xDFFF

def pairedChar (high low : Nat) : Char :=
  Char.ofNat (0x10000 + (high - 0xD800) * 0x400 + (low - 0xDC00))

def lowHalf (input : JsonInput) : Except JsonFault Nat :=
  match input with
  | [] | [some '\\'] => .error .truncated
  | some '\\' :: some 'u' :: rest =>
    (unit rest).bind fun low => if isLowSurrogate low then .ok low else .error .malformed
  | _ => .error .malformed

/-- The character that an escape stands for, and the length of the escape behind its
    backslash. -/
def escape (input : JsonInput) : Except JsonFault (Char × Nat) :=
  match input with
  | [] => .error .truncated
  | none :: _ => .error .malformed
  | some c :: rest =>
    if c = 'u' then
      (unit rest).bind fun n =>
        if isLowSurrogate n then .error .malformed
        else if isHighSurrogate n then (lowHalf (rest.drop 4)).map fun low => (pairedChar n low, 11)
        else .ok (Char.ofNat n, 5)
    else
      match simpleEscape? c with
      | some c => .ok (c, 1)
      | none => .error .malformed

def escapeLength (input : JsonInput) : Except JsonFault Nat :=
  match input with
  | [] => .error .truncated
  | none :: _ => .error .malformed
  | some c :: rest =>
    if c = 'u' then (unit rest).map fun _ => 5
    else if (simpleEscape? c).isSome then .ok 1
    else .error .malformed

/-- The characters up to the closing quote, and what follows it; the first `skipped` are part
    of an escape. -/
def readFrom (skipped : Nat) : JsonInput → Except JsonFault (List (Option Char) × JsonInput)
  | [] => .error .truncated
  | c :: rest =>
    match skipped, c with
    | skipped + 1, _ => readFrom skipped rest
    | 0, none => (readFrom 0 rest).map fun (text, rest) => (none :: text, rest)
    | 0, some c =>
      if c = '"' then .ok ([], rest)
      else if c = '\\' then
        match escape rest with
        | .error fault => .error fault
        | .ok (c, length) => (readFrom length rest).map fun (text, rest) => (some c :: text, rest)
      else if c.toNat < 32 then .error .malformed
      else (readFrom 0 rest).map fun (text, rest) => (some c :: text, rest)

def passFrom (skipped : Nat) : JsonInput → Except JsonFault JsonInput
  | [] => .error .truncated
  | c :: rest =>
    match skipped, c with
    | skipped + 1, _ => passFrom skipped rest
    | 0, none => passFrom 0 rest
    | 0, some c =>
      if c = '"' then .ok rest
      else if c = '\\' then
        match escapeLength rest with
        | .error fault => .error fault
        | .ok length => passFrom length rest
      else if c.toNat < 32 then .error .malformed
      else passFrom 0 rest

def whole? (text : List (Option Char)) : Option (List Char) :=
  text.mapM id

end Spelling

/-- A string as far as it can be read, behind its opening quote. -/
inductive SpelledText where
  | closed (text : Except JsonFault String) (rest : JsonInput)
  /-- It breaks off: the fault when it is read and when it is passed over. -/
  | broken (read passed : JsonFault)

def SpelledText.read (input : JsonInput) : SpelledText :=
  match Spelling.readFrom 0 input with
  | .ok (text, rest) =>
    match Spelling.whole? text with
    | some text => .closed (.ok (String.ofList text)) rest
    | none => .closed (.error .malformed) rest
  | .error fault =>
    match Spelling.passFrom 0 input with
    | .ok rest => .closed (.error fault) rest
    | .error passed => .broken fault passed

end FieldRemap
