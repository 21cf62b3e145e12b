/-
  FieldRemap.Log.Layout — log entries as lines.

  A line starts with the level. A span is named before the message, with its values beside
  it or, in compact lines, at the end. A line of JSON holds the same in an object; only there
  the end of a span has a line.
-/

import FieldRemap.Log.Record
import FieldRemap.Text.Number
import FieldRemap.Text.Quoted
import FieldRemap.Wire.Dataset

namespace FieldRemap

inductive LogLayout where
  | pretty
  | compact
  | json
  deriving DecidableEq, Repr

def LogLayout.name : LogLayout → String
  | .pretty => "pretty"
  | .compact => "compact"
  | .json => "json"

structure LogStyle where
  layout : LogLayout := .pretty
  isColored : Bool := false
  deriving DecidableEq, Repr

def painted (rendition text : String) : String :=
  "\x1b[" ++ rendition ++ "m" ++ text ++ "\x1b[0m"

namespace LogLevel

def label : LogLevel → String
  | .error => "ERROR"
  | .warn => " WARN"
  | .info => " INFO"
  | .debug => "DEBUG"
  | .trace => "TRACE"

def rendition : LogLevel → String
  | .error => "31"
  | .warn => "33"
  | .info => "32"
  | .debug => "34"
  | .trace => "35"

end LogLevel

namespace LogValue

/-- In lines numbers have an exponent below a ten-thousandth and from ten to the sixteenth. -/
def lineNotation : DecimalNotation := ⟨fun place => -3 ≤ place && place ≤ 16, true, false, false⟩

/-- In JSON numbers have an exponent one place later on the small side, with its sign. -/
def jsonNotation : DecimalNotation := ⟨fun place => -4 ≤ place && place ≤ 16, true, true, true⟩

/-- A 32-bit number is logged as one of 64 bits. -/
def widened (x : Single) : BinaryValue := BinaryFormat.double.value x.widen

def listText (items : List String) : String :=
  "[" ++ ", ".intercalate (items.map quoteText) ++ "]"

def text : LogValue → String
  | .plain text => text
  | .quoted text => quoteText text
  | .texts items => listText items
  | .count n => toString n
  | .flag value => toString value
  | .single x => String.ofList (lineNotation.write .double (widened x))

def toJson : LogValue → Json
  | .plain text | .quoted text => .text text
  | .texts items => .text (listText items)
  | .count n => .count n
  | .flag value => .bool value
  | .single x =>
    match widened x with
    | .finite negative significand exponent =>
      .number (.numeral (jsonNotation.write .double (.finite negative significand exponent)))
    | _ => .null

end LogValue

namespace LogStyle

def paint (style : LogStyle) (rendition text : String) : String :=
  if style.isColored then painted rendition text else text

def bold (style : LogStyle) : String → String := style.paint "1"

def dimmed (style : LogStyle) : String → String := style.paint "2"

def italic (style : LogStyle) : String → String := style.paint "3"

def field (style : LogStyle) (field : LogField) : String :=
  style.italic field.1 ++ style.dimmed "=" ++ field.2.text

def fields (style : LogStyle) (fields : List LogField) : String :=
  " ".intercalate (fields.map style.field)

def spanLabel (style : LogStyle) (span : LogSpan) : String :=
  match style.layout with
  | .compact => style.bold span.name ++ ": "
  | _ =>
    style.bold span.name ++
      (if span.fields.isEmpty then ""
        else style.bold "\x7b" ++ style.fields span.fields ++ style.bold "\x7d") ++
      style.dimmed ":" ++ " "

def spanTail (style : LogStyle) (span : LogSpan) : String :=
  match style.layout with
  | .compact => if span.fields.isEmpty then "" else " " ++ style.dimmed (style.fields span.fields)
  | _ => ""

/-- A character of a message in a line. Those that could make a terminal do something are
    written as their codes. -/
def messageChar (c : Char) : List Char :=
  if c == '\x1b' || c == '\x07' || c == '\x08' || c == '\x0c' || c == '\x7f' then
    ['\\', 'x', hexDigit (c.toNat / 16), hexDigit (c.toNat % 16)]
  else if 0x80 ≤ c.toNat && c.toNat ≤ 0x9F then
    ['\\', 'u', '\x7b', hexDigit (c.toNat / 16), hexDigit (c.toNat % 16), '\x7d']
  else [c]

def messageText (message : String) : String :=
  String.ofList (message.toList.flatMap messageChar)

def line (style : LogStyle) (record : LogRecord) : String :=
  style.paint record.level.rendition record.level.label ++ " " ++
    (record.span.map style.spanLabel).getD "" ++
    " ".intercalate (messageText record.message :: record.fields.map style.field) ++
    (record.span.map style.spanTail).getD ""

end LogStyle

namespace LogSpan

def toJson (span : LogSpan) : Json :=
  .object (span.fields.map (fun (name, value) => (name, value.toJson)) ++ [("name", .text span.name)])

def endMessage : String := "close"

end LogSpan

namespace LogEntry

/-- An entry as an object. The end of a span is not inside that span, but names it. -/
def toJson : LogEntry → Json
  | .note record =>
    .object (
      ("level", .text record.level.name.toUpper) ::
      ("fields", .object (
        (LogRecord.messageName, .text record.message) ::
        record.fields.map (fun (name, value) => (name, value.toJson)))) ::
      match record.span with
      | some span => [("span", span.toJson), ("spans", .array [span.toJson])]
      | none => [])
  | .ended span =>
    .object [
      ("level", .text span.level.name.toUpper),
      ("fields", .object [(LogRecord.messageName, .text LogSpan.endMessage)]),
      ("span", span.toJson),
      ("spans", .array [])]

def line? (style : LogStyle) (entry : LogEntry) : Option String :=
  match style.layout, entry with
  | .json, entry => some entry.toJson.compact
  | _, .note record => some (style.line record)
  | _, .ended _ => none

end LogEntry

end FieldRemap
