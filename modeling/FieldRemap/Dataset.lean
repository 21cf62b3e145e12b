/-
  FieldRemap.Dataset — the fields a data source offers.

  A field has a stable key, the display name a specification refers to, a data type and a
  role. A highlight component is a synthetic column next to a measure; its uses count for
  the measure.
-/

import FieldRemap.Text.Quoted
import FieldRemap.Text.Word

namespace FieldRemap

inductive DataType where
  | bool
  | text
  | numeric
  | dateTime
  deriving DecidableEq, Repr

namespace DataType

def all : List DataType := [.bool, .text, .numeric, .dateTime]

def name : DataType → String
  | .bool => "bool"
  | .text => "text"
  | .numeric => "numeric"
  | .dateTime => "dateTime"

/-- Reads a type from its name or an alias, whatever the case of ASCII letters and the white
    space around it. -/
def parse? (text : String) : Option DataType :=
  match String.ofList ((trimSpace text.toList).map Char.toLower) with
  | "bool" | "boolean" => some .bool
  | "text" | "string" => some .text
  | "numeric" | "number" => some .numeric
  | "datetime" | "date" => some .dateTime
  | _ => none

def refusal (text : String) : String :=
  s!"invalid data type: {quoteText text}"

end DataType

/-- Whether a field groups rows or aggregates them. -/
inductive FieldRole where
  | column
  | measure
  deriving DecidableEq, Repr

namespace FieldRole

def all : List FieldRole := [.column, .measure]

def name : FieldRole → String
  | .column => "column"
  | .measure => "measure"

end FieldRole

structure DatasetField where
  key : String
  name : String
  dataType : DataType
  role : FieldRole
  isHighlightComponent : Bool := false
  deriving DecidableEq, Repr

namespace DatasetField

def isMeasure (field : DatasetField) : Bool := field.role == .measure

def isColumn (field : DatasetField) : Bool := field.role == .column

end DatasetField

end FieldRemap
