/-
  FieldRemap.Text.Style — style codes in the lines of a text.

  A style code asks a terminal to change how it writes what follows. `carryStyles` makes the
  lines of a text independent of each other: a line starts with the codes that are in force
  and ends with the one that takes all styles away.
-/

namespace FieldRemap

/-- How much of a style code has been read behind its escape character. -/
inductive StyleState where
  | start
  | parenthesis
  | charset
  | marks
  | digits (count : Nat)
  | separator
  | letter
  | title
  | titleEscape
  | closedTitle
  deriving DecidableEq, Repr

namespace StyleState

def isLast (c : Char) : Bool :=
  ('A' ≤ c && c ≤ 'P') || c == 'R' || c == 'Z' || c == 'c' || ('f' ≤ c && c ≤ 'n') ||
    c == 'q' || c == 'r' || c == 'y' || c == '=' || c == '>' || c == '<' || c == '~'

def next? (c : Char) : StyleState → Option StyleState
  | .start =>
    if c == ']' then some .title
    else if c == '(' || c == ')' then some .parenthesis
    else if c == '[' || c == '#' || c == '?' || c == ';' then some .marks
    else if c.isDigit then some (.digits 1)
    else if isLast c then some .letter
    else none
  | .parenthesis =>
    if c == '0' || c == '1' || c == '2' then some .charset
    else if c == '(' || c == ')' || c == '[' || c == '#' || c == '?' || c == ';' then some .marks
    else if c.isDigit then some (.digits 1)
    else if isLast c then some .letter
    else none
  | .marks =>
    if c == '(' || c == ')' || c == '[' || c == '#' || c == '?' || c == ';' then some .marks
    else if c.isDigit then some (.digits 1)
    else if isLast c then some .letter
    else none
  | .digits count =>
    if 4 < count then none
    else if c.isDigit then some (.digits (count + 1))
    else if c == ';' then some .separator
    else if isLast c then some .letter
    else none
  | .separator =>
    if c == ';' then some .separator
    else if c.isDigit then some (.digits 1)
    else if isLast c then some .letter
    else none
  | .title =>
    if c == '\x07' then some .closedTitle
    else if c == '\x1b' then some .titleEscape
    else some .title
  | .titleEscape =>
    if c == '\x07' || c == '\\' then some .closedTitle
    else if c == '\x1b' then some .titleEscape
    else some .title
  | .charset | .letter | .closedTitle => none

def isWhole : StyleState → Bool
  | .start | .parenthesis | .marks | .separator => false
  | _ => true

/-- The length of the longest style code the text goes on with. `longest` is the length of
    the longest one so far, and `read` what has been read. -/
def longestFrom (longest : Option Nat) (read : Nat) (state : StyleState) : List Char → Option Nat
  | [] => longest
  | c :: rest =>
    match state.next? c with
    | none => longest
    | some state =>
      longestFrom (if state.isWhole then some (read + 1) else longest) (read + 1) state rest

end StyleState

/-- The style codes of a line; `skipped` characters belong to the code before. -/
def styleCodesFrom (skipped : Nat) : List Char → List (List Char)
  | [] => []
  | c :: rest =>
    match skipped with
    | skipped + 1 => styleCodesFrom skipped rest
    | 0 =>
      if c == '\x1b' || c == '\u009b' then
        match StyleState.longestFrom none 0 .start rest with
        | some length => (c :: rest.take length) :: styleCodesFrom length rest
        | none => styleCodesFrom 0 rest
      else styleCodesFrom 0 rest

def styleReset : List Char :=
  ['\x1b', '[', '0', 'm']

def stylesAfter (active codes : List (List Char)) : List (List Char) :=
  codes.foldl (fun active code => if code == styleReset then [] else active ++ [code]) active

/-- Lines with the styles in force at their start written out, and taken away at their end. -/
def carryStylesFrom (active : List (List Char)) : List (List Char) → List (List Char)
  | [] => []
  | line :: rest =>
    let after := stylesAfter active (styleCodesFrom 0 line)
    (active.flatten ++ line ++ if after.isEmpty then [] else styleReset) ::
      carryStylesFrom after rest

def carryStyles (text : String) : String :=
  String.ofList <| List.intercalate ['\n'] <|
    carryStylesFrom [] ((text.splitOn "\n").map (·.toList))

end FieldRemap
