/-
  FieldRemap.Allocation — giving out placeholder tokens.

  A token must not be mistaken for text that is already there or for the name of a field,
  and no two fields may share an index. Kept tokens are claimed first; every other field
  then gets the least free index, in order.
-/

import FieldRemap.Placeholder
import FieldRemap.Text.Span

namespace FieldRemap

/-- The tokens that can be given out for a text. -/
structure Allocator where
  text : List Char
  names : List String
  taken : List Nat := []
  /-- No index below this one is free. -/
  next : Nat := 0

namespace Allocator

/-- Whether a token would be mistaken for a field name or for part of the text. -/
def collides (allocator : Allocator) (token : Placeholder) : Bool :=
  allocator.names.contains token.text || occursIn token.chars allocator.text

def isFree (allocator : Allocator) (index : Nat) : Bool :=
  !allocator.taken.contains index && !allocator.collides (.ofIndex index)

def reserve? (allocator : Allocator) (token : Placeholder) : Option Allocator :=
  if allocator.taken.contains token.index || allocator.collides token then none
  else some { allocator with taken := token.index :: allocator.taken }

/-- The least index from `index` on that passes the test, looking at `bound` of them. -/
def firstFrom (test : Nat → Bool) : (bound index : Nat) → Nat
  | 0, index => index
  | bound + 1, index => if test index then index else firstFrom test bound (index + 1)

/-- A number of consecutive indices among which one is free: each index that is not free is
    taken, or its token is a field's name, or its token occurs in the text at a place of its
    own. -/
def searchBound (allocator : Allocator) : Nat :=
  allocator.taken.length + allocator.names.length + allocator.text.length

/-- The least free index not passed over before. -/
def leastFree (allocator : Allocator) : Nat :=
  firstFrom allocator.isFree allocator.searchBound allocator.next

def allocate (allocator : Allocator) : Placeholder × Allocator :=
  let index := allocator.leastFree
  (.ofIndex index, { allocator with taken := index :: allocator.taken, next := index + 1 })

end Allocator

end FieldRemap
