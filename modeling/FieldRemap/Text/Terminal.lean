/-
  FieldRemap.Text.Terminal — a text as a terminal takes it apart.

  Some characters are shown, and others form control sequences, which are not. `plainText` is
  what is shown. A text with no whole sequence in it is left as it is.
-/

namespace FieldRemap

/-- What a terminal is reading. -/
inductive TerminalMode where
  | ground
  | escape
  /-- A short sequence, behind marks. -/
  | escapeMarks
  | control
  | controlNumbers (marks : Nat)
  | controlMarks (marks : Nat)
  /-- The rest of a faulty control sequence. -/
  | controlFault
  | device
  | deviceNumbers
  | deviceMarks
  | deviceText
  | command
  /-- A string of no meaning. -/
  | ignored
  deriving DecidableEq, Repr

inductive TerminalEvent where
  | none
  /-- It is shown, or carried out. -/
  | shown
  | sequence
  deriving DecidableEq, Repr

namespace TerminalMode

def isMark (c : Char) : Bool :=
  0x20 ≤ c.toNat && c.toNat ≤ 0x2F

def isNumber (c : Char) : Bool :=
  0x30 ≤ c.toNat && c.toNat ≤ 0x3B

def isPrivate (c : Char) : Bool :=
  0x3C ≤ c.toNat && c.toNat ≤ 0x3F

/-- The end of a control sequence. One of several marks is not known. -/
def controlEnd (marks : Nat) : TerminalMode × TerminalEvent :=
  (.ground, if marks < 2 then .sequence else .none)

/-- The start of a sequence. It ends a command and the text of a device string. -/
def onEscape : TerminalMode → TerminalMode × TerminalEvent
  | .command | .deviceText => (.escape, .sequence)
  | _ => (.escape, .none)

def onControl : TerminalMode → Char → TerminalMode × TerminalEvent
  | .command, c => if c == '\x07' then (.ground, .sequence) else (.command, .none)
  | .device, _ => (.device, .none)
  | .deviceNumbers, _ => (.deviceNumbers, .none)
  | .deviceMarks, _ => (.deviceMarks, .none)
  | .deviceText, _ => (.deviceText, .none)
  | .ignored, _ => (.ignored, .none)
  | mode, _ => (mode, .shown)

def onPrintable (c : Char) : TerminalMode → TerminalMode × TerminalEvent
  | .ground => (.ground, .shown)
  | .escape =>
    if isMark c then (.escapeMarks, .none)
    else if c == 'P' then (.device, .none)
    else if c == '[' then (.control, .none)
    else if c == ']' then (.command, .none)
    else if c == 'X' || c == '^' || c == '_' then (.ignored, .none)
    else (.ground, .sequence)
  | .escapeMarks => if isMark c then (.escapeMarks, .none) else (.ground, .sequence)
  | .control =>
    if isMark c then (.controlMarks 1, .none)
    else if isNumber c then (.controlNumbers 0, .none)
    else if isPrivate c then (.controlNumbers 1, .none)
    else controlEnd 0
  | .controlNumbers marks =>
    if isMark c then (.controlMarks (marks + 1), .none)
    else if isNumber c then (.controlNumbers marks, .none)
    else if isPrivate c then (.controlFault, .none)
    else controlEnd marks
  | .controlMarks marks =>
    if isMark c then (.controlMarks (marks + 1), .none)
    else if isNumber c || isPrivate c then (.controlFault, .none)
    else controlEnd marks
  | .controlFault =>
    if isMark c || isNumber c || isPrivate c then (.controlFault, .none) else (.ground, .none)
  | .device =>
    if isMark c then (.deviceMarks, .none)
    else if isNumber c || isPrivate c then (.deviceNumbers, .none)
    else (.deviceText, .none)
  | .deviceNumbers =>
    if isMark c then (.deviceMarks, .none)
    else if isNumber c then (.deviceNumbers, .none)
    else if isPrivate c then (.ignored, .none)
    else (.deviceText, .none)
  | .deviceMarks =>
    if isMark c then (.deviceMarks, .none)
    else if isNumber c || isPrivate c then (.ignored, .none)
    else (.deviceText, .none)
  | .deviceText => (.deviceText, .none)
  | .command => (.command, .none)
  | .ignored => (.ignored, .none)

/-- A mode read on. Past ASCII, only the ground takes notice of a character. -/
def push (mode : TerminalMode) (c : Char) : TerminalMode × TerminalEvent :=
  if c == '\x1b' then mode.onEscape
  else if mode == .ground then (.ground, .shown)
  else if c == '\x18' || c == '\x1a' then (.ground, .shown)
  else if c.toNat < 0x20 then mode.onControl c
  else if c.toNat < 0x7F then mode.onPrintable c
  else (mode, .none)

end TerminalMode

structure TerminalText where
  mode : TerminalMode
  /-- The characters of the piece being read, the last one first. -/
  piece : List Char
  /-- Whether the piece is shown; else it is the start of a sequence. -/
  isShown : Bool
  /-- What is shown of the text before the piece, the last character first. -/
  shown : List Char
  pieces : Nat
  deriving DecidableEq, Repr

namespace TerminalText

def empty : TerminalText := ⟨.ground, [], false, [], 0⟩

def close (read : TerminalText) : TerminalText :=
  { read with
    piece := [], isShown := false, shown := read.piece ++ read.shown, pieces := read.pieces + 1 }

/-- A character read on. A sequence given up for another one loses its first character, and
    the rest of it goes into the other one. -/
def push (read : TerminalText) (c : Char) : TerminalText :=
  let (mode, event) := read.mode.push c
  match event with
  | .shown =>
    { read with mode, piece := if read.isShown then c :: read.piece else [c], isShown := true }
  | .sequence => { read with mode, piece := [], isShown := false, pieces := read.pieces + 1 }
  | .none =>
    if c == '\x1b' then
      if read.isShown then { read.close with mode, piece := [c] }
      else if read.piece.isEmpty then { read with mode, piece := [c] }
      else { read with mode, piece := c :: read.piece.dropLast, pieces := read.pieces + 1 }
    else { read with mode, piece := c :: read.piece }

/-- The text read to its end: a sequence without an end is not shown. -/
def finish (read : TerminalText) : TerminalText :=
  if read.piece.isEmpty then read
  else if read.isShown || read.piece.getLast? != some '\x1b' then read.close
  else { read with piece := [], pieces := read.pieces + 1 }

end TerminalText

/-- What a terminal shows of a text; a text that is all one shown piece stays whole, with a
    sequence broken off in it. -/
def plainText (text : List Char) : List Char :=
  let read := (text.foldl TerminalText.push .empty).finish
  if read.pieces == 1 && !read.shown.isEmpty then text else read.shown.reverse

end FieldRemap
