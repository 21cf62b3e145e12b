/-
  FieldRemap.Reference.Search — finding the references to a name in a text.

  A pattern says which names it stands for: one name, or every name that ends in a suffix.
  The search goes through the text once. At each position it asks whether a form opens
  there, whether a name of the pattern is written behind the opener and closed, and whether
  the quotes allow the form to open; a reference found is passed over to the end of its
  name, and its closing delimiter may open the next one.
-/

import FieldRemap.Reference.Form

namespace FieldRemap

/-- A place where a name is written: the bytes of the name without its delimiters, and the
    form it is written in. -/
structure Reference where
  span : Span
  form : Form
  deriving DecidableEq, Repr

inductive NamePattern where
  | literal (name : List Char)
  /-- Every name made of a base and this suffix. -/
  | derived (suffix : List Char)
  deriving DecidableEq, Repr

/-- Whether a character may stand in the base of a derived name; in an accessor the first
    character has a class of its own. -/
def isBaseChar (form : Form) (isFirst : Bool) (c : Char) : Bool :=
  match form with
  | .accessor => if isFirst then isWordLetter c || c == '_' || c == '$' else isWord c || c == '$'
  | _ =>
    !(c == '"' || c == '\'' || c == '\\' || c == '\r' || c == '\n' || c == '.' || c == '[' ||
      c == ']')

/-- The shortest derived name the text starts with: a base, not empty, the suffix as it is
    written, and what closes the form. `base` is what is read of the base, last character
    first. -/
def derivedNameAt? (form : Form) (suffix base : List Char) : List Char → Option (List Char)
  | [] => none
  | c :: rest =>
    if isBaseChar form base.isEmpty c then
      if (dropLeading suffix rest).any form.closes then some ((c :: base).reverse ++ suffix)
      else derivedNameAt? form suffix (c :: base) rest
    else none

namespace NamePattern

def nameAt? (pattern : NamePattern) (form : Form) (text : List Char) : Option (List Char) :=
  match pattern with
  | .literal name =>
    if form.admits name && (dropLeading (form.write name) text).any form.closes then
      some (form.write name)
    else none
  | .derived suffix => derivedNameAt? form (encodeName suffix) [] text

def matchAt? (pattern : NamePattern) (text : List Char) : Option (Form × List Char) :=
  (Form.open? text).bind fun (form, rest) => (pattern.nameAt? form rest).map (form, ·)

/-- The references in a text that starts at `pos`, those before `resume` passed over. -/
def searchFrom (pattern : NamePattern) (quotes : QuoteMap) (pos resume : Nat) :
    List Char → List Reference
  | [] => []
  | c :: rest =>
    if pos < resume then pattern.searchFrom quotes (pos + c.utf8Size) resume rest
    else
      match pattern.matchAt? (c :: rest) with
      | some (form, name) =>
        if form.isBounded quotes pos then
          let start := pos + byteLength form.opener
          let stop := start + byteLength name
          ⟨⟨start, stop⟩, form⟩ :: pattern.searchFrom quotes (pos + c.utf8Size) stop rest
        else pattern.searchFrom quotes (pos + c.utf8Size) resume rest
      | none => pattern.searchFrom quotes (pos + c.utf8Size) resume rest

def search (pattern : NamePattern) (quotes : QuoteMap) (text : List Char) : List Reference :=
  pattern.searchFrom quotes 0 0 text

end NamePattern

/-- The references to a name; the empty name has none. A name may be of any length: a search
    that turns names into automata first may refuse one of some hundred thousand characters,
    and then finds none of its references. -/
def findReferences (name : List Char) (quotes : QuoteMap) (text : List Char) : List Reference :=
  if name.isEmpty then [] else (NamePattern.literal name).search quotes text

namespace Reference

/-- The edit that makes a reference point at another name. The name is escaped for the form;
    an accessor or a bare bracket that cannot hold it becomes a quoted bracket, which for an
    accessor includes its dot. -/
def redirect (reference : Reference) (name : List Char) : Span × List Char :=
  let span := reference.span
  if reference.form.admits name then (span, reference.form.write name)
  else
    match reference.form with
    | .accessor => (⟨span.start - 1, span.stop⟩, '[' :: quotedKey name ++ [']'])
    | _ => (span, quotedKey name)

end Reference

end FieldRemap
