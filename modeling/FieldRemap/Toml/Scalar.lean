/-
  FieldRemap.Toml.Scalar — strings, numbers, dates and times.
-/

import FieldRemap.Json.Spelling
import FieldRemap.Number.Binary
import FieldRemap.Toml.Value

namespace FieldRemap

namespace Toml

def isPlain (c : Char) : Bool :=
  c == '\t' || (32 ≤ c.toNat && c.toNat != 127)

def afterLineEnd? : List Char → Option (List Char)
  | '\n' :: rest => some rest
  | '\r' :: '\n' :: rest => some rest
  | _ => none

def isBlank (c : Char) : Bool := c == ' ' || c == '\t'

def dropBlanks (text : List Char) : List Char := text.dropWhile isBlank

def codePoint? (count : Nat) (text : List Char) : Option (Char × Nat) :=
  let digits := text.take count
  if digits.length < count then none
  else
    (hexNumber? digits).bind fun n =>
      if n < 0xD800 || (0xE000 ≤ n && n < 0x110000) then some (Char.ofNat n, count + 1) else none

def escape? : List Char → Option (Char × Nat)
  | 'b' :: _ => some ('\x08', 1)
  | 't' :: _ => some ('\t', 1)
  | 'n' :: _ => some ('\n', 1)
  | 'f' :: _ => some ('\x0c', 1)
  | 'r' :: _ => some ('\r', 1)
  | 'e' :: _ => some ('\x1b', 1)
  | '"' :: _ => some ('"', 1)
  | '\\' :: _ => some ('\\', 1)
  | 'x' :: rest => codePoint? 2 rest
  | 'u' :: rest => codePoint? 4 rest
  | 'U' :: rest => codePoint? 8 rest
  | _ => none

/-- Reads a string of one line behind its opening quote; the first `skipped` characters are
    part of an escape. -/
def readBasic (skipped : Nat) : List Char → Option (List Char × List Char)
  | [] => none
  | c :: rest =>
    match skipped with
    | skipped + 1 => readBasic skipped rest
    | 0 =>
      if c = '"' then some ([], rest)
      else if c = '\\' then
        (escape? rest).bind fun (escaped, length) =>
          (readBasic length rest).map fun (text, rest) => (escaped :: text, rest)
      else if isPlain c then (readBasic 0 rest).map fun (text, rest) => (c :: text, rest)
      else none

def readLiteral : List Char → Option (List Char × List Char)
  | [] => none
  | c :: rest =>
    if c = '\'' then some ([], rest)
    else if isPlain c then (readLiteral rest).map fun (text, rest) => (c :: text, rest)
    else none

def gapLength : List Char → Nat
  | '\r' :: '\n' :: rest => gapLength rest + 2
  | c :: rest => if isBlank c || c == '\n' then gapLength rest + 1 else 0
  | [] => 0

/-- How many characters a backslash at the end of a line leaves out: what is blank up to the
    next character, when there is a line end in between. -/
def foldedLength? (text : List Char) : Option Nat :=
  if (afterLineEnd? (dropBlanks text)).isSome then some (gapLength text) else none

def quoteRun (quote : Char) (text : List Char) : Nat :=
  (text.takeWhile (· == quote)).length

/-- Reads a string of several lines behind its opening quotes; `escapes` says whether a
    backslash has a meaning. Line ends stay as they are written. Up to two quotes may stand
    before the closing ones. -/
def readLines (quote : Char) (escapes : Bool) (skipped : Nat) :
    List Char → Option (List Char × List Char)
  | [] => none
  | c :: rest =>
    match skipped with
    | skipped + 1 => readLines quote escapes skipped rest
    | 0 =>
      if c = quote && 3 ≤ quoteRun quote (c :: rest) then
        let run := quoteRun quote (c :: rest)
        if run ≤ 5 then some (List.replicate (run - 3) quote, rest.drop (run - 1)) else none
      else if c = '\\' && escapes then
        match foldedLength? rest with
        | some length => readLines quote escapes length rest
        | none =>
          (escape? rest).bind fun (escaped, length) =>
            (readLines quote escapes length rest).map fun (text, rest) => (escaped :: text, rest)
      else if c = '\n' || isPlain c || (c = '\r' && rest.head? = some '\n') then
        (readLines quote escapes 0 rest).map fun (text, rest) => (c :: text, rest)
      else none

/-- The text behind opening quotes; a line end right behind them does not count. -/
def dropFirstLineEnd (text : List Char) : List Char :=
  (afterLineEnd? text).getD text

def readString? : List Char → Option (String × List Char)
  | '"' :: '"' :: '"' :: rest =>
    (readLines '"' true 0 (dropFirstLineEnd rest)).map fun (text, rest) => (String.ofList text, rest)
  | '"' :: rest => (readBasic 0 rest).map fun (text, rest) => (String.ofList text, rest)
  | '\'' :: '\'' :: '\'' :: rest =>
    (readLines '\'' false 0 (dropFirstLineEnd rest)).map fun (text, rest) => (String.ofList text, rest)
  | '\'' :: rest => (readLiteral rest).map fun (text, rest) => (String.ofList text, rest)
  | _ => none

def ungroup? (isDigit : Char → Bool) : List Char → Option (List Char)
  | [] => none
  | [c] => if isDigit c then some [c] else none
  | c :: '_' :: rest => if isDigit c then (ungroup? isDigit rest).map (c :: ·) else none
  | c :: rest => if isDigit c then (ungroup? isDigit rest).map (c :: ·) else none

def wholeDigits? (text : List Char) : Option (List Char) :=
  match ungroup? Char.isDigit text with
  | some ('0' :: _ :: _) => none
  | digits => digits

def splitSign : List Char → Bool × List Char
  | '-' :: rest => (true, rest)
  | '+' :: rest => (false, rest)
  | text => (false, text)

def basedInteger? (base : Nat) (text : List Char) : Option Int :=
  (ungroup? (fun c => (hexValue? c).any (· < base)) text).map fun digits =>
    (digits.foldl (fun n c => base * n + (hexValue? c).getD 0) 0 : Nat)

/-- The whole numbers that can be kept: signed numbers of 128 bits, and unsigned ones. -/
def isKept (n : Int) : Bool := -0x80000000000000000000000000000000 ≤ n && n < 0x100000000000000000000000000000000

def readInteger? (text : List Char) : Option Int :=
  let n := match text with
    | '0' :: 'x' :: rest => basedInteger? 16 rest
    | '0' :: 'o' :: rest => basedInteger? 8 rest
    | '0' :: 'b' :: rest => basedInteger? 2 rest
    | _ =>
      let (negative, digits) := splitSign text
      (wholeDigits? digits).map fun digits =>
        let n : Int := Nat.ofDigitChars 10 digits 0
        if negative then -n else n
  n.filter isKept

def readExponent? : List Char → Option Int
  | [] => some 0
  | mark :: rest =>
    if mark = 'e' || mark = 'E' then
      let (negative, digits) := splitSign rest
      (ungroup? Char.isDigit digits).map fun digits =>
        let n : Int := Nat.ofDigitChars 10 digits 0
        if negative then -n else n
    else none

/-- Reads a number with a fraction or an exponent; one beyond range is none. -/
def readFloat? (text : List Char) : Option Nat :=
  let format := BinaryFormat.double
  let (negative, rest) := splitSign text
  match String.ofList rest with
  | "inf" => some (format.signed negative format.infinity)
  | "nan" => some (format.signed negative format.notNumber)
  | _ =>
    let isPart := fun c => c.isDigit || c == '_'
    let whole := rest.takeWhile isPart
    let rest := rest.dropWhile isPart
    let parts := match rest with
      | '.' :: rest =>
        (ungroup? Char.isDigit (rest.takeWhile isPart)).map (·, rest.dropWhile isPart)
      | rest => if rest.isEmpty then none else some ([], rest)
    match wholeDigits? whole, parts with
    | some whole, some (fraction, rest) =>
      (readExponent? rest).bind fun exponent =>
        let magnitude := format.ofDecimal (Nat.ofDigitChars 10 (whole ++ fraction) 0)
          (exponent - fraction.length)
        if magnitude = format.infinity then none else some (format.signed negative magnitude)
    | _, _ => none

def digits? (count : Nat) (text : List Char) : Option Nat :=
  if text.length = count && text.all Char.isDigit then some (Nat.ofDigitChars 10 text 0) else none

def daysOf (year month : Nat) : Nat :=
  if month = 2 then
    if year % 4 = 0 && (year % 100 ≠ 0 || year % 400 = 0) then 29 else 28
  else if month = 4 || month = 6 || month = 9 || month = 11 then 30
  else 31

def isDate (text : List Char) : Bool :=
  match digits? 4 (text.take 4), text.drop 4 with
  | some year, '-' :: rest =>
    match digits? 2 (rest.take 2), rest.drop 2 with
    | some month, '-' :: rest =>
      match digits? 2 rest with
      | some day => 1 ≤ month && month ≤ 12 && 1 ≤ day && day ≤ daysOf year month
      | none => false
    | _, _ => false
  | _, _ => false

def isTime (text : List Char) : Bool :=
  match digits? 2 (text.take 2), text.drop 2 with
  | some hour, ':' :: rest =>
    match digits? 2 (rest.take 2), rest.drop 2 with
    | some minute, rest =>
      hour < 24 && minute < 60 &&
        match rest with
        | [] => true
        | ':' :: rest =>
          match digits? 2 (rest.take 2), rest.drop 2 with
          | some second, [] => second ≤ 60
          | some second, '.' :: fraction => second ≤ 60 && !fraction.isEmpty && fraction.all Char.isDigit
          | _, _ => false
        | _ => false
    | _, _ => false
  | _, _ => false

def isOffset (text : List Char) : Bool :=
  match text with
  | [] | ['Z'] | ['z'] => true
  | sign :: rest =>
    (sign == '+' || sign == '-') &&
      match digits? 2 (rest.take 2), rest.drop 2 with
      | some hour, ':' :: rest => hour < 24 && (digits? 2 rest).any (· < 60)
      | _, _ => false

def isOffsetTime (text : List Char) : Bool :=
  let isPart := fun c => c.isDigit || c == ':' || c == '.'
  isTime (text.takeWhile isPart) && isOffset (text.dropWhile isPart)

def isMoment (text : List Char) : Bool :=
  isTime text || isDate text ||
    (isDate (text.take 10) &&
      match text.drop 10 with
      | c :: rest => (c == 'T' || c == 't' || c == ' ') && isOffsetTime rest
      | [] => false)

def isWordChar (c : Char) : Bool :=
  c.isAlphanum || c == '+' || c == '-' || c == '_' || c == '.' || c == ':'

/-- The word a text starts with; a date and the time behind it make one. -/
def splitWord (text : List Char) : List Char × List Char :=
  let word := text.takeWhile isWordChar
  let rest := text.dropWhile isWordChar
  match rest with
  | ' ' :: c :: more =>
    if isDate word && c.isDigit then
      (word ++ ' ' :: (c :: more).takeWhile isWordChar, (c :: more).dropWhile isWordChar)
    else (word, rest)
  | _ => (word, rest)

def readWord? (text : List Char) : Option (Toml × List Char) :=
  let (word, rest) := splitWord text
  let value :=
    if word = "true".toList then some (.bool true)
    else if word = "false".toList then some (.bool false)
    else
      match readInteger? word, readFloat? word with
      | some n, _ => some (.integer n)
      | none, some bits => some (.float bits)
      | none, none => if isMoment word then some .moment else none
  value.map (·, rest)

end Toml

end FieldRemap
