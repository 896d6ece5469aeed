import BytecodeHost.Bytes

/-!
# Text

Messages and printed output are byte strings: UTF-8 where this library writes them, arbitrary
bytes where a module supplies them. `Text.runes` splits such a string into characters and the
bytes that begin no valid character; `Text.lossy` shows each of the latter as U+FFFD.
-/

namespace BytecodeHost

/-- A byte string that is read as UTF-8. -/
structure Text where
  /-- The encoded bytes. -/
  bytes : ByteArray
  deriving DecidableEq

namespace Text

/-- The text of a string. -/
def ofString (s : String) : Text :=
  ⟨s.toUTF8⟩

instance : Coe String Text := ⟨ofString⟩

instance : Inhabited Text := ⟨ofString ""⟩

/-- Texts are joined by joining their bytes. -/
def append (s t : Text) : Text :=
  ⟨s.bytes ++ t.bytes⟩

instance : Append Text := ⟨append⟩

instance : HAppend String Text Text := ⟨fun s t => append (ofString s) t⟩

instance : HAppend Text String Text := ⟨fun s t => append s (ofString t)⟩

/-- A unit of text: a character, or a byte that begins no valid character. -/
inductive Rune where
  /-- A validly encoded character. -/
  | char (c : Char)
  /-- A byte outside every valid encoding. -/
  | stray (b : UInt8)
  deriving DecidableEq

/-- The rune at an offset and the number of bytes it takes. -/
def runeAt (b : ByteArray) (i : Nat) : Rune × Nat :=
  match b.utf8DecodeChar? i with
  | some c => (.char c, c.utf8Size)
  | none => (.stray (Bytes.byteAt b i), 1)

/-- Folds over the runes of a byte string from offset `i`; `fuel` bounds the runes left. -/
def foldRunes {α : Type} (f : α → Rune → α) (b : ByteArray) : (fuel i : Nat) → α → α
  | 0, _, acc => acc
  | fuel + 1, i, acc =>
    if i < b.size then
      let r := runeAt b i
      foldRunes f b fuel (i + r.2) (f acc r.1)
    else acc

/-- The runes of a text, in order. -/
def runes (t : Text) : Array Rune :=
  foldRunes Array.push t.bytes t.bytes.size 0 #[]

/-- How many runes a text has. -/
def runeCount (t : Text) : Nat :=
  foldRunes (fun n _ => n + 1) t.bytes t.bytes.size 0 0

/-- The text as a string, each stray byte shown as U+FFFD. -/
def lossy (t : Text) : String :=
  let put (s : String) : Rune → String
    | .char c => s.push c
    | .stray _ => s.push '\uFFFD'
  foldRunes put t.bytes t.bytes.size 0 ""

/-- Whether a text holds no stray bytes. -/
def isValid (t : Text) : Bool :=
  let ok (b : Bool) : Rune → Bool
    | .char _ => b
    | .stray _ => false
  foldRunes ok t.bytes t.bytes.size 0 true

/-! ## Names -/

/-- A letter without its case. The long s and the Kelvin sign count as letters of the alphabet. -/
def foldedChar (c : Char) : Char :=
  if c.toNat = 0x17F then 's' else if c.toNat = 0x212A then 'k' else c.toLower

/-- Whether a name is a field's name up to letter case; field names are written in ASCII. -/
def isField (field name : String) : Bool :=
  name.toList.map foldedChar = field.toList.map foldedChar

/-! ## Numbers in messages -/

/-- Lower-case hexadecimal digits of a natural number. -/
def hexNat (n : Nat) : String :=
  String.ofList (Nat.toDigits 16 n)

/-- Hexadecimal with a minus sign in front of the magnitude of a negative number. -/
def hexInt (i : Int) : String :=
  if i < 0 then "-" ++ hexNat i.natAbs else hexNat i.natAbs

/-- A string filled up on the left with a character to a given width. -/
def padLeft (c : Char) (width : Nat) (s : String) : String :=
  String.ofList (List.replicate (width - s.length) c) ++ s

end Text

end BytecodeHost
