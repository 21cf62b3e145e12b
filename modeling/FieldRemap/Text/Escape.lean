/-
  FieldRemap.Text.Escape — escaping for the two levels of quotation in a specification.

  A JSON string escapes quotes, backslashes and control characters. A single-quoted
  expression string escapes backslashes and single quotes; since it stands inside a JSON
  string, its text is escaped once more.
-/

import FieldRemap.Text.Number

namespace FieldRemap

def encodeChar (c : Char) : List Char :=
  if c = '"' then ['\\', '"']
  else if c = '\\' then ['\\', '\\']
  else if c.toNat = 8 then ['\\', 'b']
  else if c.toNat = 12 then ['\\', 'f']
  else if c = '\n' then ['\\', 'n']
  else if c = '\r' then ['\\', 'r']
  else if c = '\t' then ['\\', 't']
  else if c.toNat < 32 then
    ['\\', 'u', '0', '0', hexDigit (c.toNat / 16), hexDigit (c.toNat % 16)]
  else [c]

def encodeName (name : List Char) : List Char :=
  name.flatMap encodeChar

def escapeSingleChar (c : Char) : List Char :=
  if c = '\\' then ['\\', '\\'] else if c = '\'' then ['\\', '\''] else [c]

def escapeSingle (name : List Char) : List Char :=
  name.flatMap escapeSingleChar

/-- A name between single quotes, as that is written in a JSON string. -/
def quotedKey (name : List Char) : List Char :=
  encodeName ('\'' :: escapeSingle name ++ ['\''])

end FieldRemap
