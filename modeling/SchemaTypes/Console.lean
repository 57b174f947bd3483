import SchemaTypes.Text.Width

/-!
Text as a terminal shows it, and tables in box-drawing characters.
-/

namespace SchemaTypes.Console

/-- Control characters that are not shown: bell, backspace, vertical tab, form feed and carriage return. -/
def isHidden (c : CodePoint) : Bool := c = 7 || c = 8 || c = 11 || c = 12 || c = 13

/-- A line with each tab filled up to the next multiple of eight columns, from a given column on. -/
def expandTabs : Nat → Text → Text
  | _, [] => []
  | column, c :: rest =>
    if c = 9 then List.replicate (8 - column % 8) 0x20 ++ expandTabs (column + (8 - column % 8)) rest
    else c :: expandTabs (column + c.width) rest

/-- The lines of a text as they are shown. -/
def shownLines (t : Text) : List Text := (Text.splitOn 0x0A (t.filter (!isHidden ·))).map (expandTabs 0)

/-- A text as it is shown, with its final line end. -/
def shown (t : Text) : Text := Text.join "\n" (shownLines t) ++ "\n"

structure Table where
  header : List Text
  rows : List (List Text)

namespace Table

/-- The characters of a horizontal rule: left end, line, crossing, right end. -/
structure Rule where
  left : Text
  line : CodePoint
  crossing : Text
  right : Text

def topRule : Rule := ⟨"┏", CodePoint.ofChar '━', "┳", "┓"⟩
def headRule : Rule := ⟨"┡", CodePoint.ofChar '━', "╇", "┩"⟩
def bottomRule : Rule := ⟨"└", CodePoint.ofChar '─', "┴", "┘"⟩
def headBar : Text := "┃"
def rowBar : Text := "│"

def textWidth (t : Text) : Nat := t.width

/-- The width of a cell is that of its widest line. -/
def cellWidth (cell : Text) : Nat := ((shownLines cell).map textWidth).foldl max 0

/-- The width of each column: that of its widest cell. -/
def widths (t : Table) : List Nat :=
  (List.range t.header.length).map fun i =>
    ((t.header :: t.rows).map fun row => cellWidth (row[i]?.getD [])).foldl max 0

def ruleLine (rule : Rule) (widths : List Nat) : Text :=
  rule.left ++ Text.join rule.crossing (widths.map fun w => List.replicate (w + 2) rule.line) ++ rule.right

/-- A piece of a cell between its blanks. -/
def padded (width : Nat) (piece : Text) : Text :=
  [0x20] ++ piece ++ List.replicate (width - textWidth piece) 0x20 ++ [0x20]

/-- The lines of a row: as many as its tallest cell has. -/
def rowLines (bar : Text) (widths : List Nat) (row : List Text) : List Text :=
  let cells := row.map shownLines
  let height := (cells.map List.length).foldl max 1
  (List.range height).map fun i =>
    bar ++ Text.join bar ((widths.zip cells).map fun (width, lines) => padded width (lines[i]?.getD [])) ++ bar

/-- The table, line by line. -/
def lines (t : Table) : List Text :=
  let ws := t.widths
  [ruleLine topRule ws] ++ rowLines headBar ws t.header ++ [ruleLine headRule ws] ++
    t.rows.flatMap (rowLines rowBar ws) ++ [ruleLine bottomRule ws]

end Table
end SchemaTypes.Console
