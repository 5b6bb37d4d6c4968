import DisplayNames.Json.Basic
import DisplayNames.Text.Hex

/-!
# Writing JSON

JSON text on one line, with a blank behind every comma and colon, in printable ASCII only: every
other character is spelled by the hexadecimal digits of its UTF-16 units, except for the five
controls that have a letter.

## Main definitions

* `DisplayNames.Json.stringText` — a JSON string.
* `DisplayNames.Json.text` — a JSON value.
-/

set_option relaxedAutoImplicit false
set_option autoImplicit false

namespace DisplayNames

namespace Json

/-- One UTF-16 unit as an escape. -/
def unitEscape (unit : Nat) : List Char := '\\' :: 'u' :: Text.hexDigits 4 unit

/-- One character inside a JSON string. -/
def charText (c : Char) : List Char :=
  let n := c.toNat
  if c = '"' ∨ c = '\\' then ['\\', c]
  else if c = '\n' then ['\\', 'n']
  else if c = '\r' then ['\\', 'r']
  else if c = '\t' then ['\\', 't']
  else if n = 8 then ['\\', 'b']
  else if n = 12 then ['\\', 'f']
  else if 0x20 ≤ n ∧ n ≤ 0x7e then [c]
  else if n < 0x10000 then unitEscape n
  else unitEscape (0xd800 + (n - 0x10000) / 0x400) ++ unitEscape (0xdc00 + (n - 0x10000) % 0x400)

/-- A JSON string. -/
def stringText (s : String) : String :=
  String.ofList ('"' :: s.toList.flatMap charText ++ ['"'])

mutual

/-- A JSON value on one line. -/
def text : Json → String
  | .null => "null"
  | .bool value => if value then "true" else "false"
  | .int value => toString value
  | .float value => Decimal.textOf .long value
  | .str value => stringText value
  | .arr items => "[" ++ ", ".intercalate (texts items) ++ "]"
  | .obj fields => "\x7b" ++ ", ".intercalate (fieldTexts fields) ++ "\x7d"

/-- The texts of a list's items. -/
def texts : List Json → List String
  | [] => []
  | item :: rest => item.text :: texts rest

/-- The texts of an object's fields, each behind its key. -/
def fieldTexts : List (String × Json) → List String
  | [] => []
  | (key, value) :: rest => (stringText key ++ ": " ++ value.text) :: fieldTexts rest

end

end Json

end DisplayNames
