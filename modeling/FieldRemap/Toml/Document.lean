/-
  FieldRemap.Toml.Document — reading a document.

  A document is a sequence of lines: a key and its value, a header, a comment, or nothing.
  Values may be nested to a depth of 80, and a key may have 80 parts.
-/

import FieldRemap.Toml.Scalar

namespace FieldRemap

namespace Toml

def isKeyChar (c : Char) : Bool :=
  c.isAlphanum || c == '_' || c == '-'

def readKeyPart? : List Char → Option (String × List Char)
  | '"' :: rest => (readBasic 0 rest).map fun (text, rest) => (String.ofList text, rest)
  | '\'' :: rest => (readLiteral rest).map fun (text, rest) => (String.ofList text, rest)
  | text =>
    let part := text.takeWhile isKeyChar
    if part.isEmpty then none else some (String.ofList part, text.dropWhile isKeyChar)

def depthLimit : Nat := 80

/-- Reads a key of at most so many parts: its path, its last part, and what follows the
    blanks behind it. -/
def readParts? (parts : Nat) (text : List Char) : Option (List String × String × List Char) :=
  match parts with
  | 0 => none
  | parts + 1 =>
    (readKeyPart? text).bind fun (part, rest) =>
      match dropBlanks rest with
      | '.' :: rest =>
        (readParts? parts (dropBlanks rest)).map fun (path, key, rest) => (part :: path, key, rest)
      | rest => some ([], part, rest)

def readKey? (text : List Char) : Option (List String × String × List Char) :=
  readParts? depthLimit text

/-- What follows a comment, if one starts here; the line end does not belong to it. -/
def dropComment? (text : List Char) : Option (List Char) :=
  match text with
  | '#' :: rest =>
    let rest := rest.dropWhile isPlain
    if rest.isEmpty || (afterLineEnd? rest).isSome then some rest else none
  | text => some text

def dropGap? (fuel : Nat) (text : List Char) : Option (List Char) :=
  match fuel with
  | 0 => none
  | fuel + 1 =>
    (dropComment? (dropBlanks text)).bind fun rest =>
      match afterLineEnd? rest with
      | some rest => dropGap? fuel rest
      | none => some rest

mutual

/-- Reads a value, in which `depth` brackets may be open at a time. -/
def readValue? (fuel depth : Nat) (text : List Char) : Option (Toml × List Char) :=
  match fuel with
  | 0 => none
  | fuel + 1 =>
    match text, depth with
    | '"' :: _, _ | '\'' :: _, _ => (readString? text).map fun (value, rest) => (.string value, rest)
    | '[' :: _, 0 | '\x7b' :: _, 0 => none
    | '[' :: rest, depth + 1 =>
      (readItems? fuel depth rest).map fun (items, rest) => (.array items, rest)
    | '\x7b' :: rest, depth + 1 =>
      (readMembers? fuel depth { origin := .inline } rest).map
        fun (built, rest) => (built.toToml, rest)
    | text, _ => readWord? text

def readItems? (fuel depth : Nat) (text : List Char) : Option (List Toml × List Char) :=
  match fuel with
  | 0 => none
  | fuel + 1 =>
    (dropGap? (text.length + 1) text).bind fun text =>
      match text with
      | ']' :: rest => some ([], rest)
      | text =>
        (readValue? fuel depth text).bind fun (item, rest) =>
          (dropGap? (rest.length + 1) rest).bind fun rest =>
            match rest with
            | ',' :: rest => (readItems? fuel depth rest).map fun (items, rest) => (item :: items, rest)
            | ']' :: rest => some ([item], rest)
            | _ => none

def readMembers? (fuel depth : Nat) (built : TomlTable) (text : List Char) :
    Option (TomlTable × List Char) :=
  match fuel with
  | 0 => none
  | fuel + 1 =>
    (dropGap? (text.length + 1) text).bind fun text =>
      match text with
      | '\x7d' :: rest => some (built, rest)
      | text =>
        (readKey? text).bind fun (path, key, rest) =>
          match rest with
          | '=' :: rest =>
            (readValue? fuel depth (dropBlanks rest)).bind fun (value, rest) =>
              (built.insert path key value).bind fun built =>
                (dropGap? (rest.length + 1) rest).bind fun rest =>
                  match rest with
                  | ',' :: rest => readMembers? fuel depth built rest
                  | '\x7d' :: rest => some (built, rest)
                  | _ => none
          | _ => none

end

/-- A document being read: its table, and the path of the last header. -/
structure Reading where
  root : TomlTable := { origin := .headed }
  path : List String := []

def readHeader? (closing : List Char) (text : List Char) : Option (List String × String × List Char) :=
  (readKey? (dropBlanks text)).bind fun (path, key, rest) =>
    if closing.isPrefixOf rest then some (path, key, rest.drop closing.length) else none

def readLine? (reading : Reading) (text : List Char) : Option (Reading × List Char) :=
  match text with
  | '[' :: '[' :: rest =>
    (readHeader? [']', ']'] rest).bind fun (path, key, rest) =>
      (reading.root.openItem path key).map fun root => ({ root, path := path ++ [key] }, rest)
  | '[' :: rest =>
    (readHeader? [']'] rest).bind fun (path, key, rest) =>
      (reading.root.openTable path key).map fun root => ({ root, path := path ++ [key] }, rest)
  | text =>
    (readKey? text).bind fun (path, key, rest) =>
      match rest with
      | '=' :: rest =>
        (readValue? (2 * rest.length + 2) depthLimit (dropBlanks rest)).bind fun (value, rest) =>
          (reading.root.alter false (·.insert path key value) reading.path).map
            fun root => ({ reading with root }, rest)
      | _ => none

def readDocument? (fuel : Nat) (reading : Reading) (text : List Char) : Option TomlTable :=
  match fuel with
  | 0 => none
  | fuel + 1 =>
    (dropGap? (text.length + 1) text).bind fun text =>
      if text.isEmpty then some reading.root
      else
        (readLine? reading text).bind fun (reading, rest) =>
          (dropComment? (dropBlanks rest)).bind fun rest =>
            if rest.isEmpty then some reading.root
            else (afterLineEnd? rest).bind (readDocument? fuel reading)

/-- Reads a document; a byte order mark in front of it does not count. -/
def parse? (text : String) : Option TomlTable :=
  let chars := match text.toList with
    | '\uFEFF' :: rest => rest
    | chars => chars
  readDocument? (chars.length + 1) {} chars

end Toml

end FieldRemap
