/-
  FieldRemap.Text.Span — byte positions in a text.

  A text is a list of characters and a position in it counts UTF-8 bytes, so a character
  takes one to four positions and only the first of them is a place between characters.

  Ascending positions are searched by halving: `partitionPoint` is where a predicate that
  holds on a prefix of the indices stops holding. Membership in an ascending array and in
  ascending ranges are read off it.
-/

namespace FieldRemap

structure Span where
  start : Nat
  stop : Nat
  deriving DecidableEq, Repr

def Span.contains (span : Span) (pos : Nat) : Bool :=
  span.start ≤ pos && pos < span.stop

def byteLength : List Char → Nat
  | [] => 0
  | c :: rest => c.utf8Size + byteLength rest

/-- Moves characters from the text to `taken`, last one first, until `bytes` are moved. -/
def splitBytesFrom (taken : List Char) : Nat → List Char → List Char × List Char
  | _, [] => (taken.reverse, [])
  | bytes, c :: rest =>
    if bytes = 0 then (taken.reverse, c :: rest)
    else splitBytesFrom (c :: taken) (bytes - c.utf8Size) rest

/-- The text cut after its first `bytes` bytes; a cut inside a character falls behind it. -/
def splitBytes (bytes : Nat) (text : List Char) : List Char × List Char :=
  splitBytesFrom [] bytes text

def occursIn (part : List Char) : List Char → Bool
  | [] => part.isEmpty
  | c :: rest => part.isPrefixOf (c :: rest) || occursIn part rest

def dropLeading : (part text : List Char) → Option (List Char)
  | [], text => some text
  | _ :: _, [] => none
  | p :: part, c :: text => if p = c then dropLeading part text else none

/-! ## Halving -/

/-- Halves `[lo, hi)` until it is empty; `fuel` bounds the number of halvings. -/
def partitionPointFrom (holds : Nat → Bool) : Nat → Nat → Nat → Nat
  | 0, lo, _ => lo
  | fuel + 1, lo, hi =>
    if lo < hi then
      let mid := (lo + hi) / 2
      if holds mid then partitionPointFrom holds fuel (mid + 1) hi
      else partitionPointFrom holds fuel lo mid
    else lo

/-- The least index below `size` where `holds` fails, or `size`, when `holds` is true of a
    prefix of the indices. -/
def partitionPoint (size : Nat) (holds : Nat → Bool) : Nat :=
  partitionPointFrom holds size 0 size

def ascendingMem (xs : Array Nat) (x : Nat) : Bool :=
  xs[partitionPoint xs.size (fun i => xs[i]?.any (· < x))]? == some x

/-- Whether `x` lies in one of the closed ranges, given in ascending order. -/
def inRanges (ranges : Array (Nat × Nat)) (x : Nat) : Bool :=
  ranges[partitionPoint ranges.size (fun i => ranges[i]?.any (·.2 < x))]?.any (·.1 ≤ x)

end FieldRemap
