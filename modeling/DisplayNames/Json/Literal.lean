import DisplayNames.Json.Basic
import DisplayNames.Text.Quoted

/-!
# JSON values inside messages

A message that complains about a value shows it as a literal: texts in quotes, lists and objects
spelled out in the order of the input, and words for null and the booleans.  Where a value is a
label it is displayed instead: a text stands for itself and everything else is a literal.

## Main definitions

* `DisplayNames.Json.literal` — a value as a literal.
* `DisplayNames.Json.display` — a value as a label.
-/

set_option relaxedAutoImplicit false
set_option autoImplicit false

namespace DisplayNames

/-- The word for a boolean. -/
def boolWord (b : Bool) : String := if b then "True" else "False"

namespace Json

mutual

/-- A value as a literal. -/
def literal : Json → String
  | .null => "None"
  | .bool value => boolWord value
  | .int value => toString value
  | .float value => Decimal.textOf .short value
  | .str value => Text.quoted value
  | .arr items => "[" ++ ", ".intercalate (literals items) ++ "]"
  | .obj fields => "\x7b" ++ ", ".intercalate (fieldLiterals fields) ++ "\x7d"

/-- The literals of a list's items. -/
def literals : List Json → List String
  | [] => []
  | item :: rest => item.literal :: literals rest

/-- The literals of an object's fields, each behind its key. -/
def fieldLiterals : List (String × Json) → List String
  | [] => []
  | (key, value) :: rest => (Text.quoted key ++ ": " ++ value.literal) :: fieldLiterals rest

end

/-- A value as a label: a text stands for itself. -/
def display : Json → String
  | .str value => value
  | value => value.literal

end Json

end DisplayNames
