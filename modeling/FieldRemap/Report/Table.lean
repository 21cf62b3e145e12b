/-
  FieldRemap.Report.Table — tables of text.

  A table has a header and rows. It is printed with rounded corners, a double line under the
  header and a dotted line between columns; a column is as wide as its widest cell and one
  blank on either side of it.
-/

import FieldRemap.Text.Cluster
import FieldRemap.Text.Style
import FieldRemap.Text.Terminal

namespace FieldRemap

inductive Side where
  | left
  | right
  deriving DecidableEq, Repr

structure Column where
  heading : String
  side : Side := .left
  deriving DecidableEq, Repr

/-- A table of text; a row has a cell for each column. The lines of a cell carry their styles
    themselves. -/
structure Table where
  columns : List Column
  rows : List (List String)
  deriving DecidableEq, Repr

namespace Table

def row (cells : List String) : List String :=
  cells.map carryStyles

def cellLines (cell : String) : List (List Char) :=
  let rec split (line : List Char) : List Char → List (List Char)
    | [] => [line.reverse]
    | c :: rest => if c = '\n' then line.reverse :: split [] rest else split (c :: line) rest
  split [] cell.toList

def lineWidth (line : List Char) : Nat :=
  textWidth (plainText line)

def cellWidth (cell : String) : Nat :=
  (cellLines cell).foldl (fun width line => max width (lineWidth line)) 0

def widths (table : Table) : List Nat :=
  table.rows.foldl (fun widths row => List.zipWith max widths (row.map cellWidth))
    (table.columns.map (fun column => cellWidth column.heading))

def place (side : Side) (width : Nat) (line : List Char) : List Char :=
  let blanks := List.replicate (width - lineWidth line) ' '
  match side with
  | .left => line ++ blanks
  | .right => blanks ++ line

def join (separator : List Char) : List (List Char) → List Char
  | [] => []
  | [piece] => piece
  | piece :: rest => piece ++ separator ++ join separator rest

def rule (left line cross right : Char) (widths : List Nat) : String :=
  String.ofList (left :: join [cross] (widths.map (fun width => List.replicate (width + 2) line)) ++ [right])

def rowLines (columns : List Column) (widths : List Nat) (cells : List String) : List String :=
  let cells := cells.map cellLines
  let height := cells.foldl (fun height lines => max height lines.length) 1
  (List.range height).map fun i =>
    String.ofList ('│' :: join ['┆'] (List.zipWith (fun (column, width) lines =>
      ' ' :: place column.side width (lines.getD i []) ++ [' ']) (columns.zip widths) cells) ++ ['│'])

def lines (table : Table) : List String :=
  let widths := table.widths
  rule '╭' '─' '┬' '╮' widths ::
    rowLines table.columns widths (table.columns.map (·.heading)) ++
    rule '╞' '═' '╪' '╡' widths ::
    table.rows.flatMap (rowLines table.columns widths) ++
    [rule '╰' '─' '┴' '╯' widths]

end Table

end FieldRemap
