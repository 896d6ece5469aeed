/-!
# Text in columns

Lines of cells that are set under each other. Every cell but the last of its line is filled up with
blanks to the width of its column: two more than the longest cell of the column among the
neighbouring lines that have a cell there. A line without such a cell ends a column.

Cells end at tabs and lines at line ends, so that text from outside is laid out like the rest; a
form feed ends a line and all columns.

## Main definitions

* `Columns.layout`: lays a text out.
-/

namespace BytecodeHost

namespace Columns

/-- A line as its cells. -/
abbrev Row : Type := List (List Char)

/-- The parts of a list between the items that satisfy `p`. -/
def splitWhere (p : Char → Bool) : List Char → List (List Char)
  | [] => [[]]
  | c :: rest =>
    match splitWhere p rest with
    | [] => [[]]
    | part :: parts => if p c then [] :: part :: parts else (c :: part) :: parts

/-- The blanks between a column and the next. -/
def padding : Nat := 2

/-- Whether a line has a cell in a column, the last cell of a line apart. -/
def hasColumn (j : Nat) (row : Row) : Bool :=
  j + 1 < row.length

/-- The width of a cell. -/
def cellWidth (j : Nat) (row : Row) : Nat :=
  (row.getD j []).length

/-- The width of a column at a line, given the lines before it, the nearest first, and after it. -/
def columnWidth (before : List Row) (row : Row) (after : List Row) (j : Nat) : Nat :=
  let block := before.takeWhile (hasColumn j) ++ row :: after.takeWhile (hasColumn j)
  block.foldl (fun w r => max w (cellWidth j r)) 0 + padding

/-- The cells of a line, filled up from column `j` on. -/
def fill (width : Nat → Nat) : (j : Nat) → Row → List Char
  | _, [] => []
  | _, [last] => last
  | j, cell :: rest => cell ++ List.replicate (width j - cell.length) ' ' ++ fill width (j + 1) rest

/-- Lines filled up, given the lines before them, the nearest first. -/
def fillAll (before : List Row) : List Row → List (List Char)
  | [] => []
  | row :: after => fill (columnWidth before row after) 0 row :: fillAll (row :: before) after

/-- Whether a character ends a cell. -/
def endsCell (c : Char) : Bool :=
  c = '\t' || c = '\x0B'

/-- Lays out text without form feeds. -/
def layoutSection (s : List Char) : List Char :=
  let rows := (splitWhere (· = '\n') s).map (splitWhere endsCell)
  ['\n'].intercalate (fillAll [] rows)

/-- Lays a text out. -/
def layout (text : String) : String :=
  let sections := splitWhere (· = '\x0C') text.toList
  String.ofList (['\n'].intercalate (sections.map layoutSection))

end Columns

end BytecodeHost
