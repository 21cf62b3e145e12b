/-
  FieldRemap.Command.Host — the machine a command runs on.

  A command reads and writes files, prints, reports, and has identities made for it. What
  these do is up to the host; a command only says which of them, and in which order.
-/

import FieldRemap.Job.Identity

namespace FieldRemap

inductive FileError where
  | notFound
  | notPermitted
  | notDirectory
  | isDirectory
  | noSpace
  | nameTooLong
  | notText
  | other (reason : String)
  deriving DecidableEq, Repr

def FileError.message : FileError → String
  | .notFound => "No such file or directory (os error 2)"
  | .notPermitted => "Permission denied (os error 13)"
  | .notDirectory => "Not a directory (os error 20)"
  | .isDirectory => "Is a directory (os error 21)"
  | .noSpace => "No space left on device (os error 28)"
  | .nameTooLong => "File name too long (os error 36)"
  | .notText => "stream did not contain valid UTF-8"
  | .other reason => reason

/-- What a machine does for a command. -/
structure Host (m : Type → Type) where
  readText : (path : String) → m (Except FileError String)
  writeText : (path text : String) → m (Except FileError Unit)
  /-- Puts a text at the end of a file, which need not be there. -/
  appendText : (path text : String) → m (Except FileError Unit)
  print : String → m Unit
  report : String → m Unit
  freshId : m JobId
  logDirectives : Option String := none
  reportsToTerminal : Bool := false

end FieldRemap
