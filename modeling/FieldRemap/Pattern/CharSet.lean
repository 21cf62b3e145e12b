/-
  FieldRemap.Pattern.CharSet — sets of characters, as patterns of text name them.
-/

import FieldRemap.Text.Word

namespace FieldRemap

inductive CharSet where
  | nothing
  | range (first last : Char)
  | digit
  | space
  | word
  | letter
  | number
  | complement (set : CharSet)
  | union (a b : CharSet)
  | inter (a b : CharSet)
  /-- A set with the other cases of its letters. -/
  | anyCase (set : CharSet)
  deriving DecidableEq, Repr

namespace CharSet

def single (c : Char) : CharSet := .range c c

def mem (c : Char) : CharSet → Bool
  | .nothing => false
  | .range first last => first ≤ c && c ≤ last
  | .digit => isDecimalDigit c
  | .space => isSpace c
  | .word => isWord c
  | .letter => isLetter c
  | .number => isNumeric c
  | .complement set => !set.mem c
  | .union a b => a.mem c || b.mem c
  | .inter a b => a.mem c && b.mem c
  | .anyCase set => set.mem c || set.mem c.toLower || set.mem c.toUpper

def without (a b : CharSet) : CharSet := .inter a (.complement b)

/-- What is in one set and not in both. -/
def either (a b : CharSet) : CharSet := .inter (.union a b) (.complement (.inter a b))

def ascii? : String → Option CharSet
  | "alnum" => some (.union (.range '0' '9') (.union (.range 'A' 'Z') (.range 'a' 'z')))
  | "alpha" => some (.union (.range 'A' 'Z') (.range 'a' 'z'))
  | "ascii" => some (.range '\x00' '\x7f')
  | "blank" => some (.union (single '\t') (single ' '))
  | "cntrl" => some (.union (.range '\x00' '\x1f') (single '\x7f'))
  | "digit" => some (.range '0' '9')
  | "graph" => some (.range '!' '~')
  | "lower" => some (.range 'a' 'z')
  | "print" => some (.range ' ' '~')
  | "punct" =>
    some (.union (.union (.range '!' '/') (.range ':' '@')) (.union (.range '[' '\x60') (.range '\x7b' '~')))
  | "space" => some (.union (.range '\t' '\r') (single ' '))
  | "upper" => some (.range 'A' 'Z')
  | "word" =>
    some (.union (.union (.range '0' '9') (single '_')) (.union (.range 'A' 'Z') (.range 'a' 'z')))
  | "xdigit" => some (.union (.range '0' '9') (.union (.range 'A' 'F') (.range 'a' 'f')))
  | _ => none

end CharSet

end FieldRemap
