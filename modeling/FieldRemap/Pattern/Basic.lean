/-
  FieldRemap.Pattern.Basic — patterns of text, and the texts that match them.

  Of the ways to match a pattern at the start of a text some come before others: the first
  alternative before the second, a further repetition before none if it is greedy. The first
  way counts, and a text matches if that way takes all of it. The ways are followed side by
  side, in their order: `heads` says what each can take next.
-/

import FieldRemap.Pattern.CharSet

namespace FieldRemap

inductive TextPlace where
  | start
  | finish
  | lineStart
  | lineFinish
  deriving DecidableEq, Repr

namespace TextPlace

/-- Whether the place between two characters is one, the text starting or ending where there
    is no character. -/
def holds (before after : Option Char) : TextPlace → Bool
  | .start => before.isNone
  | .finish => after.isNone
  | .lineStart => before.isNone || before == some '\n'
  | .lineFinish => after.isNone || after == some '\n'

end TextPlace

inductive TextPattern where
  | empty
  | one (set : CharSet)
  | place (place : TextPlace)
  | sequence (first second : TextPattern)
  /-- The first alternative comes before the second. -/
  | either (first second : TextPattern)
  /-- Any number of repetitions; more come before fewer if it is greedy. -/
  | many (isGreedy : Bool) (pattern : TextPattern)
  deriving DecidableEq, Repr

/-- A way to go on with a pattern. -/
inductive PatternHead where
  | done
  | take (set : CharSet) (rest : List TextPattern)
  deriving DecidableEq, Repr

namespace TextPattern

def optional (isGreedy : Bool) (pattern : TextPattern) : TextPattern :=
  if isGreedy then .either pattern .empty else .either .empty pattern

def oneOrMore (isGreedy : Bool) (pattern : TextPattern) : TextPattern :=
  .sequence pattern (.many isGreedy pattern)

/-- The ways to go on with a pattern between two characters, in order. -/
def heads (before after : Option Char) : TextPattern → List PatternHead
  | .empty => [.done]
  | .one set => [.take set []]
  | .place position => if position.holds before after then [.done] else []
  | .sequence first second =>
    (first.heads before after).flatMap fun
      | .done => second.heads before after
      | .take set rest => [.take set (rest ++ [second])]
  | .either first second => first.heads before after ++ second.heads before after
  | .many isGreedy pattern =>
    let again := (pattern.heads before after).map fun
      | .done => .done
      | .take set rest => .take set (rest ++ [.many isGreedy pattern])
    if isGreedy then again ++ [.done] else .done :: again

def headsOfAll (before after : Option Char) : List TextPattern → List PatternHead
  | [] => [.done]
  | pattern :: rest =>
    (pattern.heads before after).flatMap fun
      | .done => headsOfAll before after rest
      | .take set inner => [.take set (inner ++ rest)]

/-- Whether the first of several ways takes the whole text. A way that is through before the
    text is leaves no room for those behind it. -/
def takesAll (before : Option Char) (ways : List (List TextPattern)) : List Char → Bool
  | [] => (ways.flatMap (headsOfAll before none)).contains .done
  | c :: rest =>
    let heads := (ways.flatMap (headsOfAll before (some c))).takeWhile (· != .done)
    let ways := heads.filterMap fun
      | .take set patterns => if set.mem c then some patterns else none
      | .done => none
    takesAll (some c) ways.eraseDups rest

def isMatch (pattern : TextPattern) (text : List Char) : Bool :=
  takesAll none [[pattern]] text

end TextPattern

end FieldRemap
