import BytecodeHost.Number.Binary64
import BytecodeHost.Number.Literal
import BytecodeHost.Text
import BytecodeHost.Toml.Syntax

/-!
# Reading TOML

A reader for version 1.1 of the format. Characters that no document may hold are refused before
anything else, so that the rest sees tabs, line ends and printable characters only. It works on the
list of characters that are left; fuel bounds the number of values, for which the length of the
input is always enough.

## Main definitions

* `Toml.readLines?`: the lines of a document.
-/

namespace BytecodeHost

namespace Toml

/-! ## Characters -/

/-- Blank or tab. -/
def isBlank (c : Char) : Bool :=
  c = ' ' || c = '\t'

/-- A character of a line end. -/
def isBreak (c : Char) : Bool :=
  c = '\n' || c = '\r'

/-- A hexadecimal digit. -/
def isHexDigit (c : Char) : Bool :=
  c.isDigit || ('a' ≤ c && c ≤ 'f') || ('A' ≤ c && c ≤ 'F')

/-- A character of a key without quotation marks. -/
def isKeyChar (c : Char) : Bool :=
  c.isAlphanum || c = '_' || c = '-'

/-- Whether a document has no control characters besides tabs and line ends; a carriage return
stands before a line feed only. -/
def isClean : List Char → Bool
  | [] => true
  | '\r' :: '\n' :: rest => isClean rest
  | c :: rest => (c = '\t' || c = '\n' || (' ' ≤ c && c ≠ '\x7F')) && isClean rest

/-- What is left after blanks. -/
def skipBlank (s : List Char) : List Char :=
  s.dropWhile isBlank

/-- What is left after blanks, line ends and comments; `inComment` says where the reader is. -/
def skipFillerFrom : (inComment : Bool) → List Char → List Char
  | _, [] => []
  | true, c :: rest => skipFillerFrom (!isBreak c) rest
  | false, c :: rest =>
    if isBlank c || isBreak c then skipFillerFrom false rest
    else if c = '#' then skipFillerFrom true rest
    else c :: rest

/-- What is left after blanks, line ends and comments. -/
def skipFiller (s : List Char) : List Char :=
  skipFillerFrom false s

/-- What is left of a line that has nothing to say any more. -/
def skipLineEnd? (s : List Char) : Option (List Char) :=
  match skipBlank s with
  | [] => some []
  | c :: rest => if isBreak c || c = '#' then some (c :: rest) else none

/-! ## Strings -/

/-- The character with a code given by hexadecimal digits. -/
def charOfHex? (digits : List Char) : Option Char :=
  if digits.all isHexDigit then
    match Literal.readDigits 16 (1 <<< 32) 0 digits with
    | .ok n => if h : n.isValidChar then some (Char.ofNatAux n h) else none
    | .error _ => none
  else none

/-- The character of an escape that begins after its backslash, and what follows. -/
def readEscape? : List Char → Option (Char × List Char)
  | 'b' :: rest => some ('\x08', rest)
  | 't' :: rest => some ('\t', rest)
  | 'n' :: rest => some ('\n', rest)
  | 'f' :: rest => some ('\x0C', rest)
  | 'r' :: rest => some ('\r', rest)
  | 'e' :: rest => some ('\x1B', rest)
  | '"' :: rest => some ('"', rest)
  | '\\' :: rest => some ('\\', rest)
  | 'x' :: a :: b :: rest => (charOfHex? [a, b]).map (·, rest)
  | 'u' :: a :: b :: c :: d :: rest => (charOfHex? [a, b, c, d]).map (·, rest)
  | 'U' :: a :: b :: c :: d :: e :: f :: g :: h :: rest =>
    (charOfHex? [a, b, c, d, e, f, g, h]).map (·, rest)
  | _ => none

/-- The rest of a string on one line after its opening mark; `out` is reversed. -/
def readBasic? : (fuel : Nat) → (out : List Char) → List Char → Option (String × List Char)
  | 0, _, _ => none
  | fuel + 1, out, s =>
    match s with
    | [] => none
    | '"' :: rest => some (String.ofList out.reverse, rest)
    | '\\' :: rest =>
      match readEscape? rest with
      | some (c, rest) => readBasic? fuel (c :: out) rest
      | none => none
    | c :: rest => if isBreak c then none else readBasic? fuel (c :: out) rest

/-- The rest of a string on one line in which nothing is escaped. -/
def readLiteral? (s : List Char) : Option (String × List Char) :=
  match s.span fun c => c ≠ '\'' && !isBreak c with
  | (body, '\'' :: rest) => some (String.ofList body, rest)
  | _ => none

/-- A line end right after the opening marks is no part of a string. -/
def dropFirstBreak : List Char → List Char
  | '\n' :: rest => rest
  | '\r' :: '\n' :: rest => rest
  | s => s

/-- How many marks in a row may end a string over several lines: three that close it and two
before them. -/
def maxClosingRun : Nat := 5

/-- The rest of a string over several lines; `out` is reversed. A backslash before a line end takes
away all blanks and line ends after it. A backslash that is escaped gives the marks right after it
one more place. -/
def readMultiBasic? : (fuel : Nat) → (afterBackslash : Bool) → (out : List Char) → List Char →
    Option (String × List Char)
  | 0, _, _, _ => none
  | fuel + 1, afterBackslash, out, s =>
    match s with
    | [] => none
    | '"' :: _ =>
      match s.span (· = '"') with
      | (marks, rest) =>
        if marks.length < 3 then readMultiBasic? fuel false (marks ++ out) rest
        else if marks.length ≤ maxClosingRun + afterBackslash.toNat then
          some (String.ofList (marks.drop 3 ++ out).reverse, rest)
        else none
    | '\\' :: rest =>
      match rest.span fun c => isBlank c || isBreak c with
      | (gap, after) =>
        if gap.contains '\n' then readMultiBasic? fuel false out after
        else
          match readEscape? rest with
          | some (c, after) => readMultiBasic? fuel (rest.head? = some '\\') (c :: out) after
          | none => none
    | c :: rest => readMultiBasic? fuel false (c :: out) rest

/-- The rest of a string over several lines in which nothing is escaped. -/
def readMultiLiteral? : (fuel : Nat) → (out : List Char) → List Char →
    Option (String × List Char)
  | 0, _, _ => none
  | fuel + 1, out, s =>
    match s with
    | [] => none
    | '\'' :: _ =>
      match s.span (· = '\'') with
      | (marks, rest) =>
        if marks.length < 3 then readMultiLiteral? fuel (marks ++ out) rest
        else if marks.length ≤ maxClosingRun then
          some (String.ofList (marks.drop 3 ++ out).reverse, rest)
        else none
    | c :: rest => readMultiLiteral? fuel (c :: out) rest

/-! ## Keys -/

/-- One part of a key. -/
def readKeyPart? (s : List Char) : Option (String × List Char) :=
  match s with
  | '"' :: rest => readBasic? s.length [] rest
  | '\'' :: rest => readLiteral? rest
  | _ =>
    match s.span isKeyChar with
    | ([], _) => none
    | (part, rest) => some (String.ofList part, rest)

/-- A key with points between its parts, and what follows it after blanks. -/
def readKey? : (fuel : Nat) → List Char → Option (Key × List Char)
  | 0, _ => none
  | fuel + 1, s =>
    match readKeyPart? (skipBlank s) with
    | none => none
    | some (part, rest) =>
      match skipBlank rest with
      | '.' :: rest => (readKey? fuel rest).map fun (parts, rest) => (part :: parts, rest)
      | rest => some ([part], rest)

/-! ## Numbers -/

/-- Whether a group of digits has underscores between digits only, and a digit at all. -/
def isDigitGroup (s : List Char) : Bool :=
  !s.isEmpty && s.all (fun c => c.isDigit || c = '_') && Literal.separated Char.isDigit false s

/-- The value of a group of digits after earlier ones. -/
def natOfGroup (start : Nat) (s : List Char) : Nat :=
  s.foldl (fun n c => if c = '_' then n else 10 * n + (c.toNat - '0'.toNat)) start

/-- A number without its sign. -/
def dropSign : List Char → List Char
  | '+' :: rest => rest
  | '-' :: rest => rest
  | s => s

/-- Whether decimal digits have no needless zero in front. -/
def isPlain (whole : List Char) : Bool :=
  whole.head? ≠ some '0' || whole.length = 1

/-- The exponent of a floating-point number: none written, or a group of digits with a sign. -/
def exponent? : List Char → Option Int
  | [] => some 0
  | e :: rest =>
    if e ≠ 'e' ∧ e ≠ 'E' then none
    else if isDigitGroup (dropSign rest) then
      let n := natOfGroup 0 (dropSign rest)
      some (if rest.head? = some '-' then -n else n)
    else none

/-- Whether a text is a floating-point number that double precision can hold. -/
def isReal (literal : List Char) : Bool :=
  let (whole, rest) := (dropSign literal).span fun c => c.isDigit || c = '_'
  let (fraction, rest) := match rest with
    | '.' :: rest => rest.span fun c => c.isDigit || c = '_'
    | rest => (['0'], rest)
  isDigitGroup whole && isPlain whole && isDigitGroup fraction &&
    match exponent? rest with
    | none => false
    | some e =>
      let places := (fraction.filter Char.isDigit).length
      let value : Decimal :=
        { digits := natOfGroup (natOfGroup 0 whole) fraction, exponent := e - places }
      (Binary64.ofDecimal? value).isSome

/-- An integer of 64 bits. -/
def integerOf? (literal : List Char) : Option Int :=
  (Literal.readInt 64 literal).toOption

/-- A decimal integer, which has no needless zero in front. -/
def decimalOf? (literal : List Char) : Option Int :=
  if isPlain (dropSign literal) then integerOf? literal else none

/-- A decimal number: a floating-point number if it has a point or an exponent. -/
def readDecimal? (s : List Char) : Option (Expr × List Char) :=
  let signed := s.length - (dropSign s).length
  let (digits, rest) := (s.drop signed).span fun c => c.isDigit || c = '_'
  match rest with
  | c :: _ =>
    if c = '.' ∨ c = 'e' ∨ c = 'E' then
      let (tail, rest) := rest.span fun c => c.isDigit || "_.-+eE".toList.contains c
      let literal := s.take signed ++ digits ++ tail
      if isReal literal then some (.real (String.ofList literal), rest) else none
    else (decimalOf? (s.take signed ++ digits)).map (.integer ·, rest)
  | [] => (decimalOf? (s.take signed ++ digits)).map (.integer ·, rest)

/-- A number in another base after its mark. -/
def readBased? (mark : Char) (isDigit : Char → Bool) (s : List Char) : Option (Expr × List Char) :=
  match s.span fun c => isDigit c || c = '_' with
  | (digits, rest) =>
    match digits with
    | '_' :: _ => none
    | [] => none
    | _ => (integerOf? ('0' :: mark :: digits)).map (.integer ·, rest)

/-! ## Dates and times -/

/-- The value of decimal digits, all of them digits. -/
def natOfDigits? (s : List Char) : Option Nat :=
  if s.all Char.isDigit then some (natOfGroup 0 s) else none

/-- The days of a month. -/
def daysIn (year month : Nat) : Nat :=
  if month = 2 then
    if year % 4 = 0 ∧ (year % 100 ≠ 0 ∨ year % 400 = 0) then 29 else 28
  else if month = 4 ∨ month = 6 ∨ month = 9 ∨ month = 11 then 30
  else 31

/-- A date, and what follows it. -/
def readDate? : List Char → Option (List Char)
  | y1 :: y2 :: y3 :: y4 :: '-' :: m1 :: m2 :: '-' :: d1 :: d2 :: rest => do
    let year ← natOfDigits? [y1, y2, y3, y4]
    let month ← natOfDigits? [m1, m2]
    let day ← natOfDigits? [d1, d2]
    if 1 ≤ month ∧ month ≤ 12 ∧ 1 ≤ day ∧ day ≤ daysIn year month then some rest else none
  | _ => none

/-- Two digits that stand for a number up to a bound. -/
def isPair (bound : Nat) (a b : Char) : Bool :=
  match natOfDigits? [a, b] with
  | some n => n ≤ bound
  | none => false

/-- The seconds of a time, which may be missing and may have a fraction, and what follows. -/
def readSeconds? : List Char → Option (List Char)
  | ':' :: s1 :: s2 :: rest =>
    if isPair 59 s1 s2 then
      match rest with
      | '.' :: rest =>
        match rest.span Char.isDigit with
        | ([], _) => none
        | (_, rest) => some rest
      | rest => some rest
    else none
  | ':' :: _ => none
  | rest => some rest

/-- A time, and what follows it. -/
def readTime? : List Char → Option (List Char)
  | h1 :: h2 :: ':' :: m1 :: m2 :: rest =>
    if isPair 23 h1 h2 ∧ isPair 59 m1 m2 then readSeconds? rest else none
  | _ => none

/-- Whether a text is the offset of a time zone, or nothing. -/
def isOffset : List Char → Bool
  | [] => true
  | ['Z'] => true
  | [sign, h1, h2, ':', m1, m2] =>
    (sign = '+' || sign = '-') && isPair 24 h1 h2 && isPair 60 m1 m2
  | _ => false

/-- Whether a text is a date, a time, or a date and a time with an optional offset. -/
def isMoment (literal : List Char) : Bool :=
  let s := literal.map fun c =>
    if c = 'z' then 'Z' else if c = 't' ∨ c = ' ' then 'T' else c
  match readDate? s with
  | some [] => true
  | some ('T' :: rest) =>
    match readTime? rest with
    | some rest => isOffset rest
    | none => false
  | some _ => false
  | none => readTime? s == some []

/-- A date or a time, and what follows it; blanks after it are no part of it. -/
def readMoment? (s : List Char) : Option (Expr × List Char) :=
  let (body, rest) := s.span fun c => c.isDigit || "-:Tt .Zz+".toList.contains c
  let literal := (body.reverse.dropWhile (· = ' ')).reverse
  if isMoment literal then some (.moment (String.ofList literal), rest) else none

/-- A number, a date or a time that starts with a digit. -/
def readNumber? (s : List Char) : Option (Expr × List Char) :=
  match s with
  | '0' :: 'x' :: rest => readBased? 'x' isHexDigit rest
  | '0' :: 'o' :: rest => readBased? 'o' (fun c => '0' ≤ c && c ≤ '7') rest
  | '0' :: 'b' :: rest => readBased? 'b' (fun c => c = '0' || c = '1') rest
  | _ =>
    match s.dropWhile Char.isDigit with
    | '-' :: _ => readMoment? s
    | ':' :: _ => readMoment? s
    | _ => readDecimal? s

/-- A number after its sign. -/
def readSigned? (sign : Char) (s : List Char) : Option (Expr × List Char) :=
  match s with
  | 'i' :: 'n' :: 'f' :: rest => some (.real (String.ofList [sign, 'i', 'n', 'f']), rest)
  | 'n' :: 'a' :: 'n' :: rest => some (.real (String.ofList [sign, 'n', 'a', 'n']), rest)
  | c :: _ => if c.isDigit then readDecimal? (sign :: s) else none
  | [] => none

/-! ## Values -/

/-- A value that holds no others. -/
def readScalar? (s : List Char) : Option (Expr × List Char) :=
  match s with
  | '"' :: '"' :: '"' :: rest =>
    (readMultiBasic? s.length false [] (dropFirstBreak rest)).map fun (t, r) => (.text t, r)
  | '"' :: rest => (readBasic? s.length [] rest).map fun (t, r) => (.text t, r)
  | '\'' :: '\'' :: '\'' :: rest =>
    (readMultiLiteral? s.length [] (dropFirstBreak rest)).map fun (t, r) => (.text t, r)
  | '\'' :: rest => (readLiteral? rest).map fun (t, r) => (.text t, r)
  | 't' :: 'r' :: 'u' :: 'e' :: rest => some (.boolean true, rest)
  | 'f' :: 'a' :: 'l' :: 's' :: 'e' :: rest => some (.boolean false, rest)
  | 'i' :: 'n' :: 'f' :: rest => some (.real "inf", rest)
  | 'n' :: 'a' :: 'n' :: rest => some (.real "nan", rest)
  | '+' :: rest => readSigned? '+' rest
  | '-' :: rest => readSigned? '-' rest
  | _ => readNumber? s

mutual

/-- A value, which may stand after blanks, and what follows it. -/
def readValue? : (fuel : Nat) → List Char → Option (Expr × List Char)
  | 0, _ => none
  | fuel + 1, s =>
    match skipBlank s with
    | '[' :: rest => readItems? fuel [] rest
    | '\x7b' :: rest => readPairs? fuel [] rest
    | rest => readScalar? rest

/-- The items of an array from the next one on; those before it are given in reverse. -/
def readItems? : (fuel : Nat) → List Expr → List Char → Option (Expr × List Char)
  | 0, _, _ => none
  | fuel + 1, items, s =>
    match skipFiller s with
    | ']' :: rest => some (.array items.reverse, rest)
    | s =>
      match readValue? fuel s with
      | none => none
      | some (v, s) =>
        match skipFiller s with
        | ',' :: rest => readItems? fuel (v :: items) rest
        | ']' :: rest => some (.array (v :: items).reverse, rest)
        | _ => none

/-- The pairs of a table in braces from the next one on; those before it are given in reverse. -/
def readPairs? : (fuel : Nat) → List (Key × Expr) → List Char → Option (Expr × List Char)
  | 0, _, _ => none
  | fuel + 1, pairs, s =>
    match skipFiller s with
    | '\x7d' :: rest => some (.table pairs.reverse, rest)
    | s =>
      match readKey? s.length s with
      | some (key, '=' :: s) =>
        match readValue? fuel s with
        | none => none
        | some (v, s) =>
          match skipFiller s with
          | ',' :: rest => readPairs? fuel ((key, v) :: pairs) rest
          | '\x7d' :: rest => some (.table ((key, v) :: pairs).reverse, rest)
          | _ => none
      | _ => none

end

/-! ## Documents -/

/-- A line that says something, and what follows it. -/
def readLine? (s : List Char) : Option (Line × List Char) :=
  match s with
  | '[' :: '[' :: rest =>
    match readKey? s.length rest with
    | some (key, ']' :: ']' :: rest) => some (.itemHeader key, rest)
    | _ => none
  | '[' :: rest =>
    match readKey? s.length rest with
    | some (key, ']' :: rest) => some (.header key, rest)
    | _ => none
  | _ =>
    match readKey? s.length s with
    | some (key, '=' :: rest) =>
      (readValue? (2 * s.length + 2) rest).map fun (v, rest) => (.pair key v, rest)
    | _ => none

/-- The lines from the next one on. -/
def readLinesFrom? : (fuel : Nat) → List Char → Option (List Line)
  | 0, _ => none
  | fuel + 1, s =>
    match skipFiller s with
    | [] => some []
    | s =>
      match readLine? s with
      | none => none
      | some (line, rest) =>
        match skipLineEnd? rest with
        | none => none
        | some rest => (readLinesFrom? fuel rest).map (line :: ·)

/-- A document without the mark that some editors write in front. -/
def dropMark (b : ByteArray) : ByteArray :=
  match b.toList with
  | 0xFF :: 0xFE :: _ => b.extract 2 b.size
  | 0xFE :: 0xFF :: _ => b.extract 2 b.size
  | 0xEF :: 0xBB :: 0xBF :: _ => b.extract 3 b.size
  | _ => b

/-- The lines of a document. -/
def readLines? (b : ByteArray) : Option (List Line) :=
  match String.fromUTF8? (dropMark b) with
  | none => none
  | some text =>
    let s := text.toList
    if isClean s then readLinesFrom? (s.length + 1) s else none

end Toml

end BytecodeHost
