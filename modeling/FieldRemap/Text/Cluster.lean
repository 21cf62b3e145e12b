/-
  FieldRemap.Text.Cluster — the columns a text takes on a terminal.

  Characters that stand together may take other room than they do apart: a line end of two
  characters takes one column, a letter pair may be written as one sign, and pictures are
  put together from others. A text is read from its end, and what has been read of it,
  `Follower`, says how the character before it counts.
-/

import FieldRemap.Text.Width
import FieldRemap.Text.Emoji

namespace FieldRemap

/-- Characters that do not show and part no ligature (Default_Ignorable). -/
def defaultIgnorableRanges : Array (Nat × Nat) :=
  #[(0xAD, 0xAD), (0x34F, 0x34F), (0x61C, 0x61C), (0x115F, 0x1160), (0x17B4, 0x17B5),
   (0x180B, 0x180F), (0x200B, 0x200F), (0x202A, 0x202E), (0x2060, 0x206F), (0x3164, 0x3164),
   (0xFE00, 0xFE0F), (0xFEFF, 0xFEFF), (0xFFA0, 0xFFA0), (0xFFF0, 0xFFF8), (0x1BCA0, 0x1BCA3),
   (0x1D173, 0x1D17A), (0xE0000, 0xE0FFF)]

/-- Characters of no column behind which a lam does not see an alef: all but formats and the
    marks that need no place. -/
def opaqueRanges : Array (Nat × Nat) :=
  #[(0x9BE, 0x9BE), (0x9D7, 0x9D7), (0xB3E, 0xB3E), (0xB57, 0xB57), (0xBBE, 0xBBE), (0xBD7, 0xBD7),
   (0xCC0, 0xCC0), (0xCC2, 0xCC2), (0xCC7, 0xCC8), (0xCCA, 0xCCB), (0xCD5, 0xCD6), (0xD3E, 0xD3E),
   (0xD4E, 0xD4E), (0xD57, 0xD57), (0xDCF, 0xDCF), (0xDDF, 0xDDF), (0x1160, 0x11FF),
   (0x1715, 0x1715), (0x1734, 0x1734), (0x1B35, 0x1B35), (0x1B3B, 0x1B3B), (0x1B3D, 0x1B3D),
   (0x1B43, 0x1B44), (0x1BAA, 0x1BAA), (0x1BF2, 0x1BF3), (0x2065, 0x2065), (0x302E, 0x302F),
   (0x3164, 0x3164), (0xA8FA, 0xA8FA), (0xA953, 0xA953), (0xA9C0, 0xA9C0), (0xD7B0, 0xD7C6),
   (0xD7CB, 0xD7FB), (0xFF9E, 0xFFA0), (0xFFF0, 0xFFF8), (0x111C0, 0x111C0), (0x111C2, 0x111C3),
   (0x11235, 0x11235), (0x1133E, 0x1133E), (0x1134D, 0x1134D), (0x11357, 0x11357),
   (0x113B8, 0x113B8), (0x113C2, 0x113C2), (0x113C5, 0x113C5), (0x113C7, 0x113C9),
   (0x113CF, 0x113CF), (0x113D1, 0x113D1), (0x114B0, 0x114B0), (0x114BD, 0x114BD),
   (0x115AF, 0x115AF), (0x116B6, 0x116B6), (0x11930, 0x11930), (0x1193D, 0x1193D),
   (0x1193F, 0x1193F), (0x11941, 0x11941), (0x11A84, 0x11A89), (0x11D46, 0x11D46),
   (0x11F02, 0x11F02), (0x11F41, 0x11F41), (0x16FF0, 0x16FF1), (0x1D165, 0x1D166),
   (0x1D16D, 0x1D172), (0xE0000, 0xE0000), (0xE0002, 0xE001F), (0xE0080, 0xE00FF),
   (0xE01F0, 0xE0FFF)]

/-- Forms of the letter alef. -/
def alefRanges : Array (Nat × Nat) :=
  #[(0x622, 0x623), (0x625, 0x625), (0x627, 0x627), (0x671, 0x673), (0x675, 0x675), (0x773, 0x774),
   (0x870, 0x882)]

/-- Khmer letters that may be written below another one. -/
def khmerSubscriptRanges : Array (Nat × Nat) :=
  #[(0x1780, 0x1782), (0x1784, 0x1787), (0x1789, 0x178C), (0x178E, 0x1793), (0x1795, 0x1798),
   (0x179B, 0x179D), (0x17A0, 0x17A0), (0x17A2, 0x17A2), (0x17A7, 0x17A7), (0x17AB, 0x17AC),
   (0x17AF, 0x17AF)]

/-- Tifinagh consonants: letters that a joiner between them writes as one sign. -/
def isTifinagh (c : Char) : Bool :=
  (0x2D31 ≤ c.toNat && c.toNat ≤ 0x2D65) || c.toNat == 0x2D6F

def isLam (c : Char) : Bool :=
  c.toNat == 0x644 || (0x6B5 ≤ c.toNat && c.toNat ≤ 0x6B8) || c.toNat == 0x76A ||
    c.toNat == 0x8A6 || c.toNat == 0x8C7

/-- What follows when a letter may be the second part of one sign. -/
inductive Ligature where
  /-- An Arabic alef, which goes into a lam. -/
  | alef
  | slashedAlef
  /-- A Hebrew lamed, which goes into an alef by a joiner. -/
  | lamed
  /-- A Buginese ya, the last part of `<a, -i> ya`. -/
  | ya
  | iYa
  | tifinagh
  | joinedTifinagh
  /-- A Lisu tone, which goes into another one. -/
  | lisuTone
  /-- An Old Turkic i, which goes into an ec by a joiner. -/
  | turkicI
  /-- A Khmer letter, which stands below another one behind a coeng. -/
  | khmer
  deriving DecidableEq, Repr

/-- How the text goes on behind a character. -/
inductive Follower where
  | plain
  | lineFeed
  | skinTone
  | flagLetter
  | flagLetters
  | picture
  | joinedPicture
  | joinedKey
  | joinedFlagLetter
  /-- An even number of letters of flags, joined to a picture. -/
  | joinedFlags
  /-- An odd number of them, more than one. -/
  | joinedFlagsAndLetter
  /-- The end of a tagged flag: so many letters of its tag, read from the end. -/
  | tagLetters (count : Nat)
  | tagDigits (count : Nat)
  | kiratE
  | kiratAi
  | ligature (part : Ligature) (isJoined : Bool)
  deriving DecidableEq, Repr

/-- What a variation selector asks of the character before it. -/
inductive Selector where
  /-- A picture, U+FE0F. -/
  | picture
  /-- Text, U+FE0E. -/
  | text
  /-- A quotation mark of full width, U+FE01. -/
  | fullQuote
  deriving DecidableEq, Repr

namespace Selector

def ofChar? (c : Char) : Option Selector :=
  if c.toNat == 0xFE0F then some .picture
  else if c.toNat == 0xFE0E then some .text
  else if c.toNat == 0xFE01 then some .fullQuote
  else none

end Selector

namespace Follower

def isJoinedPicture : Follower → Bool
  | .joinedPicture | .joinedKey => true
  | _ => false

def keeps (selector : Selector) : Follower → Bool
  | .ligature _ _ => true
  | follower => selector == .picture && follower.isJoinedPicture

/-- The tag of a flag goes on to the front with this character: up to six letters, or three
    digits with letters behind them. -/
def tagged? (c : Char) : Follower → Option Follower
  | .tagLetters count =>
    if 0xE0061 ≤ c.toNat && c.toNat ≤ 0xE007A && count < 6 then some (.tagLetters (count + 1))
    else if 0xE0030 ≤ c.toNat && c.toNat ≤ 0xE0039 && count < 5 then some (.tagDigits 1)
    else none
  | .tagDigits count =>
    if 0xE0030 ≤ c.toNat && c.toNat ≤ 0xE0039 && count < 3 then some (.tagDigits (count + 1))
    else none
  | _ => none

def isWholeTag : Follower → Bool
  | .tagLetters count => 3 ≤ count
  | .tagDigits count => count == 3
  | _ => false

def intoLigature? (c : Char) (part : Ligature) (isJoined : Bool) : Option (Int × Follower) :=
  match part with
  | .alef =>
    if c.toNat == 0x338 then some (0, .ligature .slashedAlef false)
    else if isLam c then some (0, .plain)
    else if c.toNat != 0x200C && c.toNat != 0x200D && charWidth c == 0 &&
        !inRanges opaqueRanges c.toNat then
      some (0, .ligature .alef isJoined)
    else none
  | .slashedAlef => if !isJoined && isLam c then some (0, .plain) else none
  | .lamed => if isJoined && c.toNat == 0x5D0 then some (0, .plain) else none
  | .khmer => if c.toNat == 0x17D2 then some (-1, .plain) else none
  | .ya => if isJoined && c.toNat == 0x1A17 then some (0, .ligature .iYa true) else none
  | .iYa => if c.toNat == 0x1A15 then some (0, .plain) else none
  | .tifinagh =>
    if c.toNat == 0x2D7F then some (1, .ligature .joinedTifinagh true)
    else if isJoined && isTifinagh c then some (0, .plain)
    else none
  | .joinedTifinagh => if isTifinagh c then some (-1, .plain) else none
  | .lisuTone => if 0xA4F8 ≤ c.toNat && c.toNat ≤ 0xA4FB then some (0, .plain) else none
  | .turkicI => if isJoined && c.toNat == 0x10C32 then some (0, .plain) else none

/-- A character that what follows takes up: what it adds to the columns, and what follows
    the character before it. -/
def take? (c : Char) : Follower → Option (Int × Follower)
  | .ligature part isJoined => intoLigature? c part isJoined
  | .skinTone =>
    if takesSkinTone c then some (0, .picture)
    else if c.toNat == 0x200D then some (0, .joinedPicture)
    else none
  | .flagLetter => if isFlagLetter c then some (1, .flagLetters) else none
  | .flagLetters =>
    if isFlagLetter c then some (1, .flagLetters)
    else if c.toNat == 0x200D then some (0, .joinedPicture)
    else none
  | .picture => if c.toNat == 0x200D then some (0, .joinedPicture) else none
  | .joinedPicture =>
    if c.toNat == 0x20E3 then some (0, .joinedKey)
    else if isFlagLetter c then some (1, .joinedFlagLetter)
    else if isSkinTone c then some (0, .skinTone)
    else if c.toNat == 0xE007F then some (0, .tagLetters 0)
    else if isPicture c then some (0, .picture)
    else none
  | .joinedFlagLetter => if isFlagLetter c then some (-1, .joinedFlags) else none
  | .joinedFlags =>
    if isFlagLetter c then some (3, .joinedFlagsAndLetter)
    else if c.toNat == 0x200D then some (0, .joinedPicture)
    else none
  | .joinedFlagsAndLetter =>
    if isFlagLetter c then some (-1, .joinedFlags)
    else if c.toNat == 0x200D then some (0, .joinedPicture)
    else none
  | .kiratE =>
    if c.toNat == 0x16D63 || c.toNat == 0x16D69 then some (0, .plain)
    else if c.toNat == 0x16D67 then some (0, .kiratAi)
    else if c.toNat == 0x16D68 then some (1, .kiratE)
    else none
  | .kiratAi => if c.toNat == 0x16D63 then some (0, .plain) else none
  | follower =>
    if follower.isWholeTag && c.toNat == 0x1F3F4 then some (0, .picture)
    else (follower.tagged? c).map ((0, ·))

def passed? (c : Char) : Follower → Option Follower
  | .ligature .alef _ => none
  | .ligature part isJoined =>
    if c.toNat == 0x200D then some (.ligature part true)
    else if inRanges defaultIgnorableRanges c.toNat then some (.ligature part isJoined)
    else none
  | _ => none

def ofChar (c : Char) : Follower :=
  if isSkinTone c then .skinTone
  else if isFlagLetter c then .flagLetter
  else if isPicture c then .picture
  else if inRanges alefRanges c.toNat then .ligature .alef false
  else if inRanges khmerSubscriptRanges c.toNat then .ligature .khmer true
  else if isTifinagh c then .ligature .tifinagh false
  else if c.toNat == 0x5DC then .ligature .lamed false
  else if c.toNat == 0x1A10 then .ligature .ya false
  else if c.toNat == 0xA4FC || c.toNat == 0xA4FD then .ligature .lisuTone true
  else if c.toNat == 0x10C03 then .ligature .turkicI false
  else if c.toNat == 0x16D67 then .kiratE
  else if c.toNat == 0x16D68 then .kiratAi
  else .plain

/-- A character before what follows: what it adds to the columns, and what follows the
    character before it. A line end and a control character take one column. -/
def push (follower : Follower) (c : Char) : Int × Follower :=
  if c == '\n' then (1, .lineFeed)
  else if c == '\r' && follower == .lineFeed then (0, .plain)
  else if c.toNat ≤ 0xA0 then (1, .plain)
  else
    match follower.passed? c with
    | some next => (0, next)
    | none =>
      match follower.take? c with
      | some change => change
      | none => (charWidth c, ofChar c)

end Follower

/-- What has been read of a text, from its end: what follows, and the selector before it. -/
structure Trailing where
  follower : Follower
  selector : Option Selector
  deriving DecidableEq, Repr

namespace Trailing

def none : Trailing := ⟨.plain, .none⟩

/-- A selector before what follows. What it parts the character from is gone. -/
def select (trailing : Trailing) (selector : Selector) : Trailing :=
  ⟨if trailing.follower.keeps selector then trailing.follower else .plain, some selector⟩

def dropSelector (trailing : Trailing) : Trailing :=
  match trailing.selector, trailing.follower with
  | some .picture, .ligature _ _ => ⟨trailing.follower, .none⟩
  | some .picture, _ => none
  | _, _ => ⟨trailing.follower, .none⟩

def selected? (trailing : Trailing) (c : Char) : Option (Int × Trailing) :=
  match trailing.selector with
  | some .picture =>
    if takesPictureSelector c then
      some (if trailing.follower.isJoinedPicture then 0 else 2, ⟨.picture, .none⟩)
    else .none
  | some .text => if takesTextSelector c then some (1, none) else .none
  | some .fullQuote =>
    if c.toNat == 0x2018 || c.toNat == 0x2019 || c.toNat == 0x201C || c.toNat == 0x201D then
      some (2, none)
    else .none
  | .none => .none

def push (trailing : Trailing) (c : Char) : Int × Trailing :=
  match trailing.selected? c with
  | some change => change
  | .none =>
    let trailing := trailing.dropSelector
    match Selector.ofChar? c with
    | some selector => (0, trailing.select selector)
    | .none =>
      let (columns, follower) := trailing.follower.push c
      (columns, ⟨follower, .none⟩)

end Trailing

def textWidth (text : List Char) : Nat :=
  (text.foldr
    (fun c (columns, trailing) =>
      let (change, trailing) := trailing.push c
      (columns + change, trailing))
    ((0 : Int), Trailing.none)).1.toNat

end FieldRemap
