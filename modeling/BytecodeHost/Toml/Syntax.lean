/-!
# TOML as it is written

A document is a list of lines: headers of tables, headers of items in an array of tables, and
pairs of a key and a value. Keys may have several parts. What the lines mean together is decided by
`Toml.Document`.

Floating-point numbers, dates and times keep their text: they are checked, and nothing here has a
use for their values.
-/

namespace BytecodeHost

namespace Toml

/-- The parts of a key. -/
abbrev Key : Type := List String

/-- A value as it is written. -/
inductive Expr where
  /-- A string of any of the four forms. -/
  | text (s : String)
  /-- An integer of 64 bits. -/
  | integer (n : Int)
  /-- A floating-point number. -/
  | real (literal : String)
  /-- A truth value. -/
  | boolean (b : Bool)
  /-- A date, a time or both. -/
  | moment (literal : String)
  /-- Values in brackets. -/
  | array (items : List Expr)
  /-- Pairs in braces. -/
  | table (pairs : List (Key × Expr))

/-- A line of a document, comments and blank lines apart. -/
inductive Line where
  /-- Opens a table. -/
  | header (key : Key)
  /-- Opens the next item of an array of tables. -/
  | itemHeader (key : Key)
  /-- Sets a key of the table that is open. -/
  | pair (key : Key) (value : Expr)

end Toml

end BytecodeHost
