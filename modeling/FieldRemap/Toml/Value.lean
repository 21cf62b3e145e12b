/-
  FieldRemap.Toml.Value — TOML values and how a document builds its tables.

  A key may be given once. A table that a header or a line has opened can be added to only in
  the way it was opened: `implied` tables come from the path of a header, `dotted` ones from
  the path of a key, `headed` ones have a header of their own, and `inline` ones are closed.
-/

namespace FieldRemap

inductive TableOrigin where
  | implied
  | dotted
  | headed
  | inline
  deriving DecidableEq, Repr

inductive Toml where
  | string (value : String)
  | integer (value : Int)
  | float (bits : Nat)
  | bool (value : Bool)
  | moment
  | array (items : List Toml)
  /-- Tables under one header, the latest first. -/
  | tables (latestFirst : List Toml)
  | table (origin : TableOrigin) (members : List (String × Toml))

structure TomlTable where
  origin : TableOrigin
  members : List (String × Toml) := []

namespace TomlTable

def get? (table : TomlTable) (key : String) : Option Toml :=
  (table.members.find? (·.1 == key)).map (·.2)

def add (table : TomlTable) (key : String) (value : Toml) : TomlTable :=
  { table with members := table.members ++ [(key, value)] }

def set (table : TomlTable) (key : String) (value : Toml) : TomlTable :=
  { table with
    members := table.members.map (fun member => if member.1 == key then (key, value) else member) }

def toToml (table : TomlTable) : Toml := .table table.origin table.members

/-- Changes the table at a path, which is opened where it is missing. A path of dotted keys
    does not lead into a table that has a header; no path leads into an inline table. -/
def alter (isDotted : Bool) (change : TomlTable → Option TomlTable) :
    (path : List String) → TomlTable → Option TomlTable
  | [], table => change table
  | key :: rest, table =>
    match table.get? key with
    | none =>
      (alter isDotted change rest { origin := if isDotted then .dotted else .implied }).map
        (fun inner => table.add key inner.toToml)
    | some (.table origin members) =>
      if origin = .inline || (isDotted && origin = .headed) then none
      else
        (alter isDotted change rest { origin, members }).map
          (fun inner => table.set key inner.toToml)
    | some (.tables (.table origin members :: older)) =>
      (alter isDotted change rest { origin, members }).map
        (fun inner => table.set key (.tables (inner.toToml :: older)))
    | some _ => none

/-- Gives a key its value. A dotted key goes into a table made by dotted keys, and no other
    key does. -/
def insert (path : List String) (key : String) (value : Toml) : TomlTable → Option TomlTable :=
  alter true (fun table =>
    if (table.origin == .dotted) == path.isEmpty || (table.get? key).isSome then none
    else some (table.add key value)) path

def openTable (path : List String) (key : String) : TomlTable → Option TomlTable :=
  alter false (fun table =>
    match table.get? key with
    | none => some (table.add key (.table .headed []))
    | some (.table .implied members) => some (table.set key (.table .headed members))
    | some _ => none) path

def openItem (path : List String) (key : String) : TomlTable → Option TomlTable :=
  alter false (fun table =>
    match table.get? key with
    | none => some (table.add key (.tables [.table .headed []]))
    | some (.tables older) => some (table.set key (.tables (.table .headed [] :: older)))
    | some _ => none) path

end TomlTable

end FieldRemap
