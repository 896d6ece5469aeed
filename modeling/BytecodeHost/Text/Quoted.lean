import BytecodeHost.Text
import BytecodeHost.Text.Printable

/-!
# Quoted text

Text between quotation marks, with escapes for the mark itself, the backslash, control
characters, stray bytes and everything that is not printable.

## Main definitions

* `Text.quoted`: text between double quotes.
* `Text.quotedChar`: a character between single quotes.
-/

namespace BytecodeHost

namespace Text

/-- The letters of the control characters that have an escape of their own. -/
def controlEscapes : List (Nat × String) :=
  [(7, "\\a"), (8, "\\b"), (12, "\\f"), (10, "\\n"), (13, "\\r"), (9, "\\t"), (11, "\\v")]

/-- A byte as `\x` and two digits. -/
def escapedByte (n : Nat) : String :=
  "\\x" ++ padLeft '0' 2 (hexNat n)

/-- A character as it stands inside quotation marks. -/
def escapedChar (mark c : Char) : String :=
  if c = mark ∨ c = '\\' then String.singleton '\\' ++ String.singleton c
  else if isPrintable c then String.singleton c
  else
    match controlEscapes.lookup c.toNat with
    | some s => s
    | none =>
      if c.toNat < 0x20 ∨ c.toNat = 0x7F then escapedByte c.toNat
      else if c.toNat < 0x10000 then "\\u" ++ padLeft '0' 4 (hexNat c.toNat)
      else "\\U" ++ padLeft '0' 8 (hexNat c.toNat)

/-- A rune as it stands inside quotation marks. -/
def escapedRune (mark : Char) : Rune → String
  | .char c => escapedChar mark c
  | .stray b => escapedByte b.toNat

/-- Text between double quotes. -/
def quoted (t : Text) : String :=
  let body := foldRunes (fun s r => s ++ escapedRune '"' r) t.bytes t.bytes.size 0 "\""
  body.push '"'

/-- A character between single quotes. -/
def quotedChar (c : Char) : String :=
  "'" ++ escapedChar '\'' c ++ "'"

end Text

end BytecodeHost
