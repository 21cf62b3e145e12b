/-
  FieldRemap.Assignment.Similarity — how alike two names are.

  Names are compared without regard to case and separators. Names that are not the same then
  are compared by Jaro-Winkler similarity, whatever characters they are made of.
-/

import FieldRemap.Text.Lowercase
import FieldRemap.Text.Word

namespace FieldRemap

def isSeparator (c : Char) : Bool :=
  c == '_' || c == '-' || c == '.' || c == '/' || c == '\\' || c == '(' || c == ')'

def joinWords : List (List Char) → List Char
  | [] => []
  | [word] => word
  | word :: rest => word ++ ' ' :: joinWords rest

def normalizeName (name : List Char) : List Char :=
  joinWords <| splitSpace <|
    (toLowerText (trimSpace name)).map (fun c => if isSeparator c then ' ' else c)

namespace Similarity

/-- How far apart two matching characters may stand. -/
def window (a b : List Char) : Nat :=
  max a.length b.length / 2 - 1

/-- Marks the first character equal to `c`, not marked yet, among the places `low` to `high`;
    `place` is that of the head. -/
def markFirst? (c : Char) (low high : Nat) (place : Nat) :
    List (Char × Bool) → Option (List (Char × Bool))
  | [] => none
  | (other, marked) :: rest =>
    if low ≤ place && place ≤ high && !marked && other == c then some ((other, true) :: rest)
    else (markFirst? c low high (place + 1) rest).map ((other, marked) :: ·)

/-- Matches the characters of `text` one after another with those of a marked text, and gives
    the matched ones of both in their order. -/
def matchChars (window : Nat) (place : Nat) (marked : List (Char × Bool)) :
    List Char → List Char × List Char
  | [] => ([], (marked.filter (·.2)).map (·.1))
  | c :: rest =>
    match markFirst? c (place - window) (place + window) 0 marked with
    | some marked =>
      let (matched, others) := matchChars window (place + 1) marked rest
      (c :: matched, others)
    | none => matchChars window (place + 1) marked rest

def jaro (a b : List Char) : Float :=
  if a.isEmpty || b.isEmpty then 0
  else
    let (matched, others) := matchChars (window a b) 0 (a.map (·, false)) b
    let common := Float.ofNat matched.length
    if matched.isEmpty then 0
    else
      let moved := ((matched.zip others).filter (fun (x, y) => x != y)).length / 2
      (common / Float.ofNat a.length + common / Float.ofNat b.length +
        (common - Float.ofNat moved) / common) / 3

def commonStart : List Char → List Char → Nat
  | a :: as, b :: bs => if a = b then commonStart as bs + 1 else 0
  | _, _ => 0

/-- The Jaro-Winkler similarity of two texts: alike texts gain by a common start. -/
def jaroWinkler (a b : List Char) : Float :=
  let similarity := jaro a b
  if 0.7 < similarity then
    similarity + Float.ofNat (min 4 (commonStart a b)) * 0.1 * (1 - similarity)
  else similarity

end Similarity

def nameSimilarity (a b : List Char) : Float :=
  let a := normalizeName a
  let b := normalizeName b
  if a = b then 1 else Similarity.jaroWinkler a b

end FieldRemap
