/-
  FieldRemap.QuoteMap — where string literals open, and what lies inside them.

  A quote only opens a literal where the text stands outside one, so the text is read once
  from its start. There are three levels of strings: literals between double or single
  quotes at the top, and, inside a double-quoted literal, expression strings between
  escaped double quotes (`\"`) or single quotes. A backslash takes the next character with
  it; the pair `\\` in a double-quoted literal is one backslash of the expression in it,
  which in turn takes the next character of an expression string with it.

  `Context` is what has to be known to read the next character, `Context.next` reads it,
  and `QuoteMap.lex` records what is met on the way.
-/

import FieldRemap.Text.Span

namespace FieldRemap

/-- Where an expression stands: in code, or in a string of its own. -/
inductive ExpressionContext where
  | code
  | doubleQuoted
  | singleQuoted
  deriving DecidableEq, Repr

/-- Where a text stands before a character. -/
inductive Context where
  | outside
  /-- In a double-quoted literal; `escaped` when the expression escapes what comes next. -/
  | literal (inner : ExpressionContext) (escaped : Bool)
  /-- Behind a backslash in a double-quoted literal. -/
  | backslash (inner : ExpressionContext) (escaped : Bool)
  | single
  | singleBackslash
  deriving DecidableEq, Repr

namespace ExpressionContext

def afterPlain (inner : ExpressionContext) (c : Char) : ExpressionContext :=
  match inner with
  | .code => if c = '\'' then .singleQuoted else .code
  | .singleQuoted => if c = '\'' then .code else .singleQuoted
  | .doubleQuoted => .doubleQuoted

/-- The context after a double quote, written behind a backslash. -/
def afterQuote : ExpressionContext → ExpressionContext
  | .code => .doubleQuoted
  | .doubleQuoted => .code
  | .singleQuoted => .singleQuoted

end ExpressionContext

namespace Context

def next (context : Context) (c : Char) : Context :=
  match context with
  | .outside => if c = '"' then .literal .code false else if c = '\'' then .single else .outside
  | .literal inner escaped =>
    if c = '"' then .outside
    else if c = '\\' then .backslash inner escaped
    else if escaped then .literal inner false
    else .literal (inner.afterPlain c) false
  | .backslash inner true => .literal inner false
  | .backslash inner false =>
    if c = '"' then .literal inner.afterQuote false
    else if c = '\\' then .literal inner (inner != .code)
    else .literal inner false
  | .single => if c = '\\' then .singleBackslash else if c = '\'' then .outside else .single
  | .singleBackslash => .single

def isInside : Context → Bool
  | .outside => false
  | _ => true

def opensString (context : Context) (c : Char) : Bool :=
  context == .outside && c == '"'

/-- Whether a character, behind a backslash, opens an expression string. -/
def opensEscaped (context : Context) (c : Char) : Bool :=
  context == .backslash .code false && c == '"'

def opensSingle (context : Context) (c : Char) : Bool :=
  (context == .outside || context == .literal .code false) && c == '\''

def closes (context : Context) (c : Char) : Bool :=
  context.isInside && context.next c == .outside

end Context

/-- The positions where strings open, and the contents of the top-level literals, all in
    ascending order. An escaped opener is recorded at its backslash. -/
structure QuoteMap where
  strings : Array Nat := #[]
  escaped : Array Nat := #[]
  single : Array Nat := #[]
  literals : Array Span := #[]
  deriving DecidableEq, Repr

/-- A text being read: the context and position reached, the start of the literal that
    position lies in, and what is recorded so far. -/
structure Lexer where
  context : Context := .outside
  pos : Nat := 0
  opened : Nat := 0
  map : QuoteMap := {}

namespace Lexer

def note (lexer : Lexer) (c : Char) : QuoteMap :=
  let map := lexer.map
  let map := if lexer.context.opensString c then { map with strings := map.strings.push lexer.pos } else map
  let map := if lexer.context.opensEscaped c then { map with escaped := map.escaped.push (lexer.pos - 1) } else map
  let map := if lexer.context.opensSingle c then { map with single := map.single.push lexer.pos } else map
  if lexer.context.closes c then
    { map with literals := map.literals.push ⟨lexer.opened, lexer.pos⟩ }
  else map

def read (lexer : Lexer) (c : Char) : Lexer where
  context := lexer.context.next c
  pos := lexer.pos + c.utf8Size
  opened := if lexer.context = .outside then lexer.pos + c.utf8Size else lexer.opened
  map := lexer.note c

/-- What is recorded when the text ends here: a literal that is still open ends with it. -/
def finish (lexer : Lexer) : QuoteMap :=
  if lexer.context.isInside then
    { lexer.map with literals := lexer.map.literals.push ⟨lexer.opened, lexer.pos⟩ }
  else lexer.map

end Lexer

namespace QuoteMap

def lex (text : List Char) : QuoteMap :=
  (text.foldl Lexer.read {}).finish

def opensString (map : QuoteMap) (pos : Nat) : Bool :=
  ascendingMem map.strings pos

def opensEscaped (map : QuoteMap) (pos : Nat) : Bool :=
  ascendingMem map.escaped pos

def opensSingle (map : QuoteMap) (pos : Nat) : Bool :=
  ascendingMem map.single pos

/-- Whether a position lies in the contents of a top-level literal: the last literal that
    starts at or before it is the one that can contain it. -/
def inLiteral (map : QuoteMap) (pos : Nat) : Bool :=
  let after := partitionPoint map.literals.size (fun i => map.literals[i]?.any (·.start ≤ pos))
  0 < after && map.literals[after - 1]?.any (·.contains pos)

end QuoteMap

end FieldRemap
