import BytecodeHost.Json.Value
import BytecodeHost.Text

/-!
# JSON text

Values without blanks between their parts. In strings the characters that markup or scripts would
take for their own are written as escapes.
-/

namespace BytecodeHost

namespace JsonValue

/-- The letters of the control characters that have an escape of their own. -/
def controlEscapes : List (Char × String) :=
  [('\x08', "\\b"), ('\x0c', "\\f"), ('\n', "\\n"), ('\r', "\\r"), ('\t', "\\t"), ('"', "\\\""),
   ('\\', "\\\\")]

/-- A character as `\u` and four digits. -/
def escapedUnit (c : Char) : String :=
  "\\u" ++ Text.padLeft '0' 4 (Text.hexNat c.toNat)

/-- Whether a character is written by its number. -/
def needsEscape (c : Char) : Bool :=
  c.toNat < 0x20 || c == '<' || c == '>' || c == '&' || c.toNat == 0x2028 || c.toNat == 0x2029

/-- Appends a character of a string. -/
def pushChar (out : String) (c : Char) : String :=
  match controlEscapes.lookup c with
  | some s => out ++ s
  | none => if needsEscape c then out ++ escapedUnit c else out.push c

/-- Appends a string with its quotation marks. -/
def pushString (out s : String) : String :=
  (s.foldl pushChar (out.push '"')).push '"'

mutual

/-- Appends a value. -/
def push (out : String) : JsonValue → String
  | null => out ++ "null"
  | bool b => out ++ if b then "true" else "false"
  | number n => out ++ n.value.toText
  | string s => pushString out s
  | array [] => out ++ "[]"
  | array (v :: rest) => (pushItems (push (out.push '[') v) rest).push ']'
  | object [] => out ++ "\x7b\x7d"
  | object ((name, v) :: rest) =>
    (pushMembers (push ((pushString (out.push '\x7b') name).push ':') v) rest).push '\x7d'

/-- Appends items, each after a comma. -/
def pushItems (out : String) : List JsonValue → String
  | [] => out
  | v :: rest => pushItems (push (out.push ',') v) rest

/-- Appends members, each after a comma. -/
def pushMembers (out : String) : List (String × JsonValue) → String
  | [] => out
  | (name, v) :: rest =>
    pushMembers (push ((pushString (out.push ',') name).push ':') v) rest

end

/-- The text of a value. -/
def render (v : JsonValue) : String :=
  push "" v

end JsonValue

end BytecodeHost
