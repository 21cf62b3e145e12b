/-
  FieldRemap.Proofs.Grammar — which texts are documents.

  A text is a sequence of pieces: tokens, blanks and comments. Tokens are JSON's: the marks of
  arrays and objects, words, numbers and strings; a string is given by what stands between its
  quotes, escapes as they are written. A document is a text without comments whose tokens make
  one value.

  The reader in `FieldRemap.Json.Document` gives the value of a document; the grammar says which
  texts are documents, and so when two of them have the same tokens. Both take the same texts for
  documents (`Document.isRead_iff` in `FieldRemap.Proofs.Document`).
-/

import FieldRemap.Json.Document
import FieldRemap.Text.Span

namespace FieldRemap

/-! ## Strings -/

/-- Where the inside of a string stands before a character. -/
inductive StringPlace where
  | plain
  | escape
  /-- Before a hexadecimal digit of an escape, with more to follow it. -/
  | digits (more : Nat)
  deriving DecidableEq, Repr

namespace StringPlace

/-- The place after a character, `none` for one that cannot stand here. -/
def next (place : StringPlace) (c : Char) : Option StringPlace :=
  match place with
  | .plain => if c = '"' || c.toNat < 32 then none else if c = '\\' then some .escape else some .plain
  | .escape =>
    if c = 'u' then some (.digits 3) else if (Spelling.simpleEscape? c).isSome then some .plain else none
  | .digits more =>
    if (hexValue? c).isSome then some (match more with | 0 => .plain | more + 1 => .digits more) else none

def read (place : StringPlace) (text : List Char) : Option StringPlace :=
  text.foldlM next place

end StringPlace

def isContent (text : List Char) : Bool :=
  StringPlace.plain.read text == some .plain

/-! ## Tokens and pieces -/

inductive JsonToken where
  | mark (c : Char)
  | word (letters : List Char)
  | number (text : List Char)
  | string (content : List Char)
  deriving DecidableEq, Repr

namespace JsonToken

def text : JsonToken → List Char
  | .mark c => [c]
  | .word letters => letters
  | .number text => text
  | .string content => '"' :: content ++ ['"']

def isFormed : JsonToken → Bool
  | .mark c => c ∈ ['[', ']', '{', '}', ':', ',']
  | .word letters => letters ∈ ["null".toList, "true".toList, "false".toList]
  | .number text =>
    match Numeral.read (text.map some) with
    | .ok (_, []) => true
    | _ => false
  | .string content => isContent content

/-- The token without the contents of a string. -/
def erase : JsonToken → JsonToken
  | .string _ => .string []
  | token => token

end JsonToken

inductive JsonPiece where
  | blank (c : Char)
  | token (token : JsonToken)
  | line (inside : List Char)
  | block (inside : List Char)
  deriving DecidableEq, Repr

namespace JsonPiece

def text : JsonPiece → List Char
  | .blank c => [c]
  | .token t => t.text
  | .line inside => '/' :: '/' :: inside
  | .block inside => '/' :: '*' :: inside ++ ['*', '/']

def isFormed : JsonPiece → Bool
  | .blank c => Document.isBlank (some c)
  | .token t => t.isFormed
  | .line inside => '\n' ∉ inside
  | .block inside => !occursIn ['*', '/'] inside

def comment? : JsonPiece → Option (List Char)
  | .line inside | .block inside => some inside
  | _ => none

def token? : JsonPiece → Option JsonToken
  | .token t => some t
  | _ => none

def erase : JsonPiece → JsonPiece
  | .token t => .token t.erase
  | piece => piece

/-- The piece with a comment overwritten with as many blanks as it has bytes. -/
def blankOut : JsonPiece → JsonPiece
  | .line inside => .line (List.replicate (byteLength inside) ' ')
  | .block inside => .block (List.replicate (byteLength inside) ' ')
  | piece => piece

def write (pieces : List JsonPiece) : List Char :=
  pieces.flatMap text

@[simp] theorem write_cons (piece : JsonPiece) (pieces : List JsonPiece) :
    write (piece :: pieces) = piece.text ++ write pieces := rfl

/-- The places of the comments in the text of pieces that starts at a position. -/
def commentSpans (pos : Nat) : List JsonPiece → List Span
  | [] => []
  | piece :: pieces =>
    let behind := commentSpans (pos + byteLength piece.text) pieces
    if piece.comment?.isSome then ⟨pos, pos + byteLength piece.text⟩ :: behind else behind

end JsonPiece

/-! ## Documents -/

inductive JsonPart where
  | value
  | items
  | members
  deriving DecidableEq, Repr

/-- The tokens start with such a part and go on with the rest. -/
inductive Derives : JsonPart → List JsonToken → List JsonToken → Prop
  | word {letters : List Char} {rest : List JsonToken} : Derives .value (.word letters :: rest) rest
  | number {text : List Char} {rest : List JsonToken} : Derives .value (.number text :: rest) rest
  | string {content : List Char} {rest : List JsonToken} : Derives .value (.string content :: rest) rest
  | emptyArray {rest : List JsonToken} : Derives .value (.mark '[' :: .mark ']' :: rest) rest
  | array {tokens rest : List JsonToken} :
      Derives .items tokens (.mark ']' :: rest) → Derives .value (.mark '[' :: tokens) rest
  | emptyObject {rest : List JsonToken} : Derives .value (.mark '{' :: .mark '}' :: rest) rest
  | object {tokens rest : List JsonToken} :
      Derives .members tokens (.mark '}' :: rest) → Derives .value (.mark '{' :: tokens) rest
  | lastItem {tokens rest : List JsonToken} : Derives .value tokens rest → Derives .items tokens rest
  | item {tokens others rest : List JsonToken} :
      Derives .value tokens (.mark ',' :: others) → Derives .items others rest → Derives .items tokens rest
  | lastMember {key : List Char} {tokens rest : List JsonToken} :
      Derives .value tokens rest → Derives .members (.string key :: .mark ':' :: tokens) rest
  | member {key : List Char} {tokens others rest : List JsonToken} :
      Derives .value tokens (.mark ',' :: others) → Derives .members others rest →
        Derives .members (.string key :: .mark ':' :: tokens) rest

/-- The pieces make a document: there is no comment among them, and their tokens make one value. -/
structure IsDocument (pieces : List JsonPiece) : Prop where
  formed : ∀ piece ∈ pieces, piece.isFormed = true
  uncommented : ∀ piece ∈ pieces, piece.comment? = none
  derives : Derives .value (pieces.filterMap (·.token?)) []

end FieldRemap
