/-
  FieldRemap.Command.Memory — a machine that keeps its files in memory.

  What a command does on it is a function of the files it starts with. They stand in the
  directory that the command is run in; a name with slashes stands in the directories that it
  names, and these are there as long as something stands in them. Outside there are only the
  directories of every machine and its devices.
-/

import FieldRemap.Command.Host

namespace FieldRemap

structure MemoryMachine where
  files : List (String × String) := []
  /-- The files made outside the directory that the command is run in. -/
  strayFiles : List (String × String) := []
  printed : String := ""
  reported : String := ""
  identities : Nat := 0
  deriving DecidableEq, Repr

/-- A file that is no text kept somewhere. -/
inductive Device where
  /-- Holds nothing and keeps nothing. -/
  | null
  /-- Takes nothing. -/
  | full
  | output
  | report
  deriving DecidableEq, Repr

inductive Directory where
  | inside (names : List String)
  /-- One that is not looked into, by its path. -/
  | outside (path : String)
  | root
  | devices
  deriving DecidableEq, Repr

inductive FilePlace where
  | directory (directory : Directory)
  | device (device : Device)
  | file (name : String)
  | strayFile (name : String)
  /-- Nothing is there, but a file can be made under this name. -/
  | vacant (name : String)
  | strayVacant (name : String)
  | nowhere (error : FileError)
  deriving DecidableEq, Repr

namespace MemoryMachine

def lookUp? (files : List (String × String)) (name : String) : Option String :=
  (files.find? (·.1 == name)).map (·.2)

def put (files : List (String × String)) (name text : String) : List (String × String) :=
  (name, text) :: files.filter (·.1 != name)

def isDirectory (machine : MemoryMachine) (name : String) : Bool :=
  machine.files.any (·.1.startsWith (name ++ "/"))

def rootNames : List String :=
  ["bin", "boot", "etc", "home", "lib", "mnt", "opt", "proc", "root", "run", "sbin", "srv", "sys",
    "tmp", "usr", "var"]

def deviceNames : List (String × Device) :=
  [("null", .null), ("stdin", .null), ("full", .full), ("stdout", .output), ("stderr", .report)]

def parent : Directory → Directory
  | .inside [] => .outside ".."
  | .inside names => .inside names.dropLast
  | .outside path => if path.startsWith ".." then .outside ("../" ++ path) else .root
  | .root | .devices => .root

def child (machine : MemoryMachine) (directory : Directory) (name : String) : FilePlace :=
  let stray (path : String) : FilePlace :=
    if (lookUp? machine.strayFiles path).isSome then .strayFile path else .strayVacant path
  if 255 < name.utf8ByteSize then .nowhere .nameTooLong
  else
    match directory with
    | .inside names =>
      let path := "/".intercalate (names ++ [name])
      if machine.isDirectory path then .directory (.inside (names ++ [name]))
      else if (lookUp? machine.files path).isSome then .file path
      else .vacant path
    | .outside path => stray (path ++ "/" ++ name)
    | .root =>
      if name = "dev" then .directory .devices
      else if rootNames.contains name then .directory (.outside ("/" ++ name))
      else stray ("/" ++ name)
    | .devices =>
      match deviceNames.find? (·.1 == name) with
      | some (_, device) => .device device
      | none => stray ("/dev/" ++ name)

/-- Where the parts of a path lead. `isMaking` says that a file is to be made where none is,
    and `endsOpen` that the path ends in a slash, so that it leads to no file. -/
def walk (machine : MemoryMachine) (isMaking endsOpen : Bool) (directory : Directory) :
    List String → FilePlace
  | [] => .directory directory
  | "." :: rest => machine.walk isMaking endsOpen directory rest
  | ".." :: rest => machine.walk isMaking endsOpen (parent directory) rest
  | name :: rest =>
    if rest.isEmpty && endsOpen && isMaking then .nowhere .isDirectory
    else
      match machine.child directory name with
      | .directory inner => machine.walk isMaking endsOpen inner rest
      | .nowhere error => .nowhere error
      | .vacant path => if rest.isEmpty && !endsOpen then .vacant path else .nowhere .notFound
      | .strayVacant path =>
        if rest.isEmpty && !endsOpen then .strayVacant path else .nowhere .notFound
      | place => if rest.isEmpty && !endsOpen then place else .nowhere .notDirectory

def place (machine : MemoryMachine) (isMaking : Bool) (path : String) : FilePlace :=
  if 4096 ≤ path.utf8ByteSize then .nowhere .nameTooLong
  else
    machine.walk isMaking (path.endsWith "/") (if path.startsWith "/" then .root else .inside [])
      ((path.splitOn "/").filter (!·.isEmpty))

def readText (machine : MemoryMachine) (path : String) : Except FileError String :=
  match machine.place false path with
  | .directory _ => .error .isDirectory
  | .device _ => .ok ""
  | .file name => .ok ((lookUp? machine.files name).getD "")
  | .strayFile name => .ok ((lookUp? machine.strayFiles name).getD "")
  | .vacant _ | .strayVacant _ => .error .notFound
  | .nowhere error => .error error

def edit (machine : MemoryMachine) (path text : String) (isBehind : Bool) :
    Except FileError MemoryMachine :=
  let change (files : List (String × String)) (name : String) :=
    put files name ((if isBehind then (lookUp? files name).getD "" else "") ++ text)
  match machine.place true path with
  | .directory _ => .error .isDirectory
  | .device .null => .ok machine
  | .device .full => if text.isEmpty then .ok machine else .error .noSpace
  | .device .output => .ok { machine with printed := machine.printed ++ text }
  | .device .report => .ok { machine with reported := machine.reported ++ text }
  | .file name | .vacant name => .ok { machine with files := change machine.files name }
  | .strayFile name | .strayVacant name =>
    .ok { machine with strayFiles := change machine.strayFiles name }
  | .nowhere error => .error error

def change (path text : String) (isBehind : Bool) : StateM MemoryMachine (Except FileError Unit) :=
  fun machine =>
    match machine.edit path text isBehind with
    | .ok machine => (.ok (), machine)
    | .error error => (.error error, machine)

def host (logDirectives : Option String := none) : Host (StateM MemoryMachine) where
  readText path := return (← get).readText path
  writeText path text := change path text false
  appendText path text := change path text true
  print text := modify fun machine => { machine with printed := machine.printed ++ text }
  report text := modify fun machine => { machine with reported := machine.reported ++ text }
  freshId := modifyGet fun machine =>
    (.ofRandom machine.identities, { machine with identities := machine.identities + 1 })
  logDirectives := logDirectives

end MemoryMachine

end FieldRemap
