import LinkedQuery.Text.Width

/-!
# Tables

`Table.text` draws a table of two columns with a header.  Each column is as wide as its widest
cell, with a blank on each side; a cell with line breaks takes up several lines.
-/

namespace LinkedQuery

/-- A table of two columns. -/
structure Table where
  header : String × String
  rows : List (String × String)

namespace Table

/-- The lines of a cell. -/
def lines : List Char → List (List Char)
  | [] => [[]]
  | c :: rest =>
    if c = '\n' then [] :: lines rest
    else
      match lines rest with
      | [] => [[c]]
      | line :: others => (c :: line) :: others

/-- The columns of the widest line of a cell. -/
def cellWidth (cell : String) : Nat :=
  (lines cell.toList).foldl (fun width line => max width (Width.ofChars line)) 0

/-- The columns of the widest of some cells. -/
def columnWidth (cells : List String) : Nat :=
  cells.foldl (fun width cell => max width (cellWidth cell)) 0

/-- A line filled up with blanks, between two more. -/
def pad (width : Nat) (line : List Char) : List Char :=
  ' ' :: (line ++ List.replicate (width - Width.ofChars line) ' ' ++ [' '])

/-- The lines of a row, for columns of two widths. -/
def rowLines (left right : Nat) (row : String × String) : List (List Char) :=
  let first := lines row.1.toList
  let second := lines row.2.toList
  (List.range (max first.length second.length)).map fun i =>
    '|' :: (pad left (first.getD i []) ++ '|' :: (pad right (second.getD i []) ++ ['|']))

/-- A line between rows: an edge, a stroke under the left column, a joint, and the same stroke
under the right column up to the edge. -/
def rule (left right : Nat) (edge stroke joint : Char) : List Char :=
  edge :: (List.replicate (left + 2) stroke ++ joint
    :: (List.replicate (right + 2) stroke ++ [edge]))

/-- The rows with a rule between any two. -/
def body (left right : Nat) : List (String × String) → List (List Char)
  | [] => []
  | [row] => rowLines left right row
  | row :: next :: rows =>
    rowLines left right row ++ rule left right '|' '-' '+' :: body left right (next :: rows)

/-- The table as lines of text. -/
def text (table : Table) : String :=
  let left := columnWidth (table.header.1 :: table.rows.map Prod.fst)
  let right := columnWidth (table.header.2 :: table.rows.map Prod.snd)
  let border := rule left right '+' '-' '+'
  let all := border :: rowLines left right table.header
    ++ rule left right '+' '=' '=' :: body left right table.rows ++ [border]
  String.intercalate "\n" (all.map String.ofList)

end Table

end LinkedQuery
