/-
  FieldRemap.Pattern.Syntax — reading a pattern.

  Most characters stand for themselves. `.` is any character but a line end, `[…]` a set and
  `\` starts an escape; `*`, `+` and `?` repeat what stands before them, `|` parts
  alternatives and `(…)` groups. Counted repetitions and places between words are refused.
-/

import FieldRemap.Pattern.Basic
import FieldRemap.Text.Number

namespace FieldRemap

structure PatternFlags where
  ignoresCase : Bool := false
  dotTakesLineEnds : Bool := false
  hasLines : Bool := false
  /-- Repetitions are greedy only with a `?` behind them. -/
  isLazy : Bool := false
  /-- Blanks, and comments from `#` to the line end, do not count. -/
  ignoresBlanks : Bool := false
  deriving DecidableEq, Repr

inductive PatternEscape where
  | char (c : Char)
  | set (set : CharSet)
  | place (place : TextPlace)
  deriving DecidableEq, Repr

namespace PatternFlags

def understand (flags : PatternFlags) (set : CharSet) : CharSet :=
  if flags.ignoresCase then .anyCase set else set

def set? (flags : PatternFlags) (value : Bool) : Char → Option PatternFlags
  | 'i' => some { flags with ignoresCase := value }
  | 's' => some { flags with dotTakesLineEnds := value }
  | 'm' => some { flags with hasLines := value }
  | 'U' => some { flags with isLazy := value }
  | 'x' => some { flags with ignoresBlanks := value }
  | 'u' => if value then some flags else none
  | _ => none

/-- The flags changed by letters, those behind a minus being cleared; each stands only once. -/
def change? (flags : PatternFlags) (value : Bool) (seen : List Char) : List Char → Option PatternFlags
  | [] => if seen.head? = some '-' then none else some flags
  | c :: rest =>
    if seen.contains c then none
    else if c = '-' then flags.change? false (c :: seen) rest
    else (flags.set? value c).bind fun flags => flags.change? value (c :: seen) rest

end PatternFlags

namespace TextPattern

def codePoint? (count : Nat) (text : List Char) : Option (PatternEscape × List Char) :=
  if (text.take count).length < count then none
  else
    (hexNumber? (text.take count)).bind fun n =>
      if n < 0xD800 || (0xE000 ≤ n && n < 0x110000) then
        some (.char (Char.ofNat n), text.drop count)
      else none

def readEscape? : List Char → Option (PatternEscape × List Char)
  | 'd' :: rest => some (.set .digit, rest)
  | 'D' :: rest => some (.set (.complement .digit), rest)
  | 's' :: rest => some (.set .space, rest)
  | 'S' :: rest => some (.set (.complement .space), rest)
  | 'w' :: rest => some (.set .word, rest)
  | 'W' :: rest => some (.set (.complement .word), rest)
  | 'p' :: 'L' :: rest => some (.set .letter, rest)
  | 'P' :: 'L' :: rest => some (.set (.complement .letter), rest)
  | 'p' :: 'N' :: rest => some (.set .number, rest)
  | 'P' :: 'N' :: rest => some (.set (.complement .number), rest)
  | 'A' :: rest => some (.place .start, rest)
  | 'z' :: rest => some (.place .finish, rest)
  | 'a' :: rest => some (.char '\x07', rest)
  | 'f' :: rest => some (.char '\x0c', rest)
  | 't' :: rest => some (.char '\t', rest)
  | 'n' :: rest => some (.char '\n', rest)
  | 'r' :: rest => some (.char '\r', rest)
  | 'v' :: rest => some (.char '\x0b', rest)
  | 'x' :: rest => codePoint? 2 rest
  | 'u' :: rest => codePoint? 4 rest
  | 'U' :: rest => codePoint? 8 rest
  | c :: rest =>
    if 128 ≤ c.toNat || c.isAlphanum || c == '<' || c == '>' then none else some (.char c, rest)
  | [] => none

/-- What blanks and comments leave, if they do not count. -/
def dropBlanks (fuel : Nat) (flags : PatternFlags) (text : List Char) : List Char :=
  match fuel, text with
  | fuel + 1, c :: rest =>
    if !flags.ignoresBlanks then text
    else if isSpace c then dropBlanks fuel flags rest
    else if c == '#' then dropBlanks fuel flags (rest.dropWhile (· != '\n'))
    else text
  | _, _ => text

def readSetItem? : List Char → Option (PatternEscape × List Char)
  | '\\' :: rest => readEscape? rest
  | c :: rest => some (.char c, rest)
  | [] => none

def readNamedSet? (text : List Char) : Option (CharSet × List Char) :=
  match text with
  | ':' :: rest =>
    let (negative, rest) := match rest with
      | '^' :: rest => (true, rest)
      | rest => (false, rest)
    let name := rest.takeWhile (· != ':')
    match rest.drop name.length with
    | ':' :: ']' :: rest =>
      (CharSet.ascii? (String.ofList name)).map fun set =>
        (if negative then .complement set else set, rest)
    | _ => none
  | _ => none

mutual

def readSet? (fuel : Nat) (flags : PatternFlags) (text : List Char) : Option (CharSet × List Char) :=
  match fuel with
  | 0 => none
  | fuel + 1 =>
    let text := dropBlanks text.length flags text
    let (negative, text) := match text with
      | '^' :: rest => (true, dropBlanks rest.length flags rest)
      | text => (false, text)
    let hyphens := text.takeWhile (· == '-')
    let text := text.drop hyphens.length
    let start := if hyphens.isEmpty then .nothing else .single '-'
    let (start, text) := match hyphens, text with
      | [], ']' :: rest => (.single ']', rest)
      | _, text => (start, text)
    (readSetItems? fuel flags start text).map fun (set, rest) =>
      let set := flags.understand set
      (if negative then .complement set else set, rest)

def readSetItems? (fuel : Nat) (flags : PatternFlags) (set : CharSet) (text : List Char) :
    Option (CharSet × List Char) :=
  match fuel with
  | 0 => none
  | fuel + 1 =>
    match dropBlanks text.length flags text with
    | [] => none
    | ']' :: rest => some (set, rest)
    | '&' :: '&' :: rest =>
      (readSetItems? fuel flags .nothing rest).map fun (other, rest) => (.inter set other, rest)
    | '-' :: '-' :: rest =>
      (readSetItems? fuel flags .nothing rest).map fun (other, rest) => (set.without other, rest)
    | '~' :: '~' :: rest =>
      (readSetItems? fuel flags .nothing rest).map fun (other, rest) => (set.either other, rest)
    | '[' :: rest =>
      match readNamedSet? rest with
      | some (inner, rest) => readSetItems? fuel flags (.union set inner) rest
      | none =>
        (readSet? fuel flags rest).bind fun (inner, rest) =>
          readSetItems? fuel flags (.union set inner) rest
    | text =>
      (readSetItem? text).bind fun (first, rest) =>
        let rest := dropBlanks rest.length flags rest
        let behind := (dropBlanks rest.length flags rest.tail).head?
        if rest.head? = some '-' && behind != some ']' && behind != some '-' then
          match first, readSetItem? (dropBlanks rest.length flags rest.tail) with
          | .char first, some (.char last, rest) =>
            if first ≤ last then readSetItems? fuel flags (.union set (.range first last)) rest
            else none
          | _, _ => none
        else
          match first with
          | .char c => readSetItems? fuel flags (.union set (.single c)) rest
          | .set inner => readSetItems? fuel flags (.union set inner) rest
          | .place _ => none

end

end TextPattern

/-- A group of a pattern being read. -/
structure PatternGroup where
  flags : PatternFlags
  /-- The alternatives that are through, the last one first. -/
  branches : List TextPattern
  /-- What has been read of the alternative, the last one first; `none` for a change of flags. -/
  items : List (Option TextPattern)
  deriving DecidableEq, Repr

namespace PatternGroup

def empty (flags : PatternFlags) : PatternGroup := ⟨flags, [], []⟩

def push (group : PatternGroup) (item : TextPattern) : PatternGroup :=
  { group with items := some item :: group.items }

def branch (group : PatternGroup) : TextPattern :=
  (group.items.filterMap id).foldr (fun item before => .sequence before item) .empty

def next (group : PatternGroup) : PatternGroup :=
  { group with branches := group.branch :: group.branches, items := [] }

def pattern (group : PatternGroup) : TextPattern :=
  group.branches.foldl (fun behind branch => .either branch behind) group.branch

def repeated? (group : PatternGroup) (make : TextPattern → TextPattern) : Option PatternGroup :=
  match group.items with
  | some item :: rest => some { group with items := some (make item) :: rest }
  | _ => none

end PatternGroup

namespace TextPattern

def isGroupName (name : List Char) : Bool :=
  match name with
  | [] => false
  | c :: rest =>
    (c == '_' || isAlphabetic c) &&
      rest.all fun c => c == '_' || c == '.' || c == '[' || c == ']' || isAlphabetic c || isNumeric c

/-- Reads what stands between a group's parenthesis and its pattern: the flags of the group,
    or a change of flags without a group. -/
def readGroup? (flags : PatternFlags) (text : List Char) : Option (PatternFlags × Bool × List Char) :=
  let named (text : List Char) :=
    let name := text.takeWhile (· != '>')
    match text.drop name.length with
    | '>' :: rest => if isGroupName name then some (flags, true, rest) else none
    | _ => none
  match text with
  | '?' :: 'P' :: '<' :: rest => named rest
  | '?' :: '<' :: rest => named rest
  | '?' :: rest =>
    let letters := rest.takeWhile fun c => c != ':' && c != ')'
    match rest.drop letters.length with
    | ':' :: rest => (flags.change? true [] letters).map (·, true, rest)
    | ')' :: rest =>
      if letters.isEmpty then none else (flags.change? true [] letters).map (·, false, rest)
    | _ => none
  | text => some (flags, true, text)

def readGreed (flags : PatternFlags) (text : List Char) : Bool × List Char :=
  match text with
  | '?' :: rest => (flags.isLazy, rest)
  | text => (!flags.isLazy, text)

/-- Reads a pattern; `outer` are the groups around the one being read. -/
def readFrom (fuel : Nat) (outer : List PatternGroup) (group : PatternGroup) (text : List Char) :
    Option TextPattern :=
  match fuel with
  | 0 => none
  | fuel + 1 =>
    let flags := group.flags
    match dropBlanks text.length flags text with
    | [] => if outer.isEmpty then some group.pattern else none
    | '(' :: rest =>
      match readGroup? flags rest with
      | none => none
      | some (inner, true, rest) => readFrom fuel (group :: outer) (.empty inner) rest
      | some (flags, false, rest) =>
        readFrom fuel outer { group with flags, items := none :: group.items } rest
    | ')' :: rest =>
      match outer with
      | [] => none
      | parent :: outer => readFrom fuel outer (parent.push group.pattern) rest
    | '|' :: rest => readFrom fuel outer group.next rest
    | '*' :: rest =>
      let (isGreedy, rest) := readGreed flags rest
      (group.repeated? (.many isGreedy)).bind fun group => readFrom fuel outer group rest
    | '+' :: rest =>
      let (isGreedy, rest) := readGreed flags rest
      (group.repeated? (.oneOrMore isGreedy)).bind fun group => readFrom fuel outer group rest
    | '?' :: rest =>
      let (isGreedy, rest) := readGreed flags rest
      (group.repeated? (.optional isGreedy)).bind fun group => readFrom fuel outer group rest
    | '\x7b' :: _ => none
    | '[' :: rest =>
      (readSet? (2 * text.length) flags rest).bind fun (set, rest) =>
        readFrom fuel outer (group.push (.one set)) rest
    | '.' :: rest =>
      let set := if flags.dotTakesLineEnds then .complement .nothing else .complement (.single '\n')
      readFrom fuel outer (group.push (.one set)) rest
    | '^' :: rest =>
      readFrom fuel outer (group.push (.place (if flags.hasLines then .lineStart else .start))) rest
    | '$' :: rest =>
      readFrom fuel outer (group.push (.place (if flags.hasLines then .lineFinish else .finish))) rest
    | '\\' :: rest =>
      match readEscape? rest with
      | none => none
      | some (.char c, rest) =>
        readFrom fuel outer (group.push (.one (flags.understand (.single c)))) rest
      | some (.set set, rest) => readFrom fuel outer (group.push (.one set)) rest
      | some (.place position, rest) => readFrom fuel outer (group.push (.place position)) rest
    | c :: rest => readFrom fuel outer (group.push (.one (flags.understand (.single c)))) rest

def parse? (text : List Char) : Option TextPattern :=
  readFrom (text.length + 1) [] (.empty {}) text

end TextPattern

end FieldRemap
