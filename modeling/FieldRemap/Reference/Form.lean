/-
  FieldRemap.Reference.Form — the five ways a specification writes a field's name.

  As a JSON string (`"Sales"`), as an expression string inside one, between escaped double
  quotes (`\"Sales\"`) or single quotes (`'Sales'`), bare between brackets (`datum[Sales]`),
  or as a property accessor (`datum.Sales`). Each form opens with a delimiter, escapes the
  name in its own way and is closed by what follows the name.
-/

import FieldRemap.QuoteMap
import FieldRemap.Text.Escape
import FieldRemap.Text.Word

namespace FieldRemap

inductive Form where
  | string
  | escaped
  | single
  | bracket
  | accessor
  deriving DecidableEq, Repr

def isBareKey (name : List Char) : Bool :=
  name.all (fun c => c != '[' && c != ']' && c != '\'' && c != '"' && c != '\\')

namespace Form

def name : Form → String
  | .string => "string"
  | .escaped => "escaped"
  | .single => "single"
  | .bracket => "bracket"
  | .accessor => "accessor"

def opener : Form → List Char
  | .string => ['"']
  | .escaped => ['\\', '"']
  | .single => ['\'']
  | .bracket => ['[']
  | .accessor => ['.']

/-- The form whose opener the text starts with, and the text behind the opener. -/
def open? : List Char → Option (Form × List Char)
  | '\\' :: '"' :: rest => some (.escaped, rest)
  | '"' :: rest => some (.string, rest)
  | '\'' :: rest => some (.single, rest)
  | '[' :: rest => some (.bracket, rest)
  | '.' :: rest => some (.accessor, rest)
  | _ => none

/-- Whether a name may follow here without being part of a longer one. -/
def endsAccessor : List Char → Bool
  | [] => true
  | c :: _ => !(isWord c || c == '$')

def closes (form : Form) (text : List Char) : Bool :=
  match form with
  | .accessor => endsAccessor text
  | .bracket => [']'].isPrefixOf text
  | form => form.opener.isPrefixOf text

def admits (form : Form) (name : List Char) : Bool :=
  match form with
  | .bracket => isBareKey name
  | .accessor => isIdentifier name
  | _ => true

def write (form : Form) (name : List Char) : List Char :=
  match form with
  | .string | .bracket => encodeName name
  | .escaped => encodeName (encodeName name)
  | .single => encodeName (escapeSingle name)
  | .accessor => name

/-- Whether a form may open at a position: a quoted form where its quote opens a string, the
    others inside a literal. -/
def isBounded (form : Form) (quotes : QuoteMap) (pos : Nat) : Bool :=
  match form with
  | .string => quotes.opensString pos
  | .escaped => quotes.opensEscaped pos
  | .single => quotes.opensSingle pos
  | .bracket | .accessor => quotes.inLiteral pos

end Form

end FieldRemap
