/-
  FieldRemap.Main — the command line.
-/

import FieldRemap.Command.Run

namespace FieldRemap

def FileError.ofError : IO.Error → FileError
  | .noFileOrDirectory .. => .notFound
  | .permissionDenied .. => .notPermitted
  | .inappropriateType _ code _ => if code = 20 then .notDirectory else .isDirectory
  | .resourceExhausted _ 28 _ => .noSpace
  | .invalidArgument _ 36 _ => .nameTooLong
  | error => .other (toString error)

def attempt {α : Type} (action : IO α) : IO (Except FileError α) := do
  try return .ok (← action)
  catch error => return .error (.ofError error)

def readTextFile (path : String) : IO (Except FileError String) := do
  match ← attempt (IO.FS.readBinFile path) with
  | .error error => return .error error
  | .ok bytes =>
    match String.fromUTF8? bytes with
    | some text => return .ok text
    | none => return .error .notText

def appendToFile (path text : String) : IO Unit := do
  let handle ← IO.FS.Handle.mk path .append
  handle.putStr text

def randomId : IO JobId := do
  let bytes ← IO.getRandomBytes 16
  return .ofRandom (bytes.toList.foldl (fun n byte => 256 * n + byte.toNat) 0)

def machine : IO (Host IO) := do
  return {
    readText := readTextFile
    writeText := fun path text => attempt (IO.FS.writeFile path text)
    appendText := fun path text => attempt (appendToFile path text)
    print := fun text => do (← IO.getStdout).putStr text
    report := fun text => do (← IO.getStderr).putStr text
    freshId := randomId
    logDirectives := ← IO.getEnv "RUST_LOG"
    reportsToTerminal := ← (← IO.getStderr).isTty }

end FieldRemap

def main (arguments : List String) : IO UInt32 := do
  let host ← FieldRemap.machine
  return (← host.run arguments).code
