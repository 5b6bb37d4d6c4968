import DisplayNames.Decimal.Notation
import DisplayNames.Table

/-!
# JSON values

The values that graph documents and configurations are made of.  Integers and doubles are different
things here: a number written with a point or an exponent is a double even if it is whole.  The
fields of an object keep the order of the text, because messages and JSON output show it.

## Main definitions

* `DisplayNames.Json` — the values.
* `DisplayNames.Json.isSet` — a value read as a flag.
-/

set_option relaxedAutoImplicit false
set_option autoImplicit false

namespace DisplayNames

/-- A JSON value. -/
inductive Json where
  | null
  | bool (value : Bool)
  | int (value : Int)
  | float (value : Float)
  | str (value : String)
  | arr (items : List Json)
  | obj (fields : List (String × Json))
  deriving Inhabited

namespace Json

/-- A value read as a flag: everything is set but null, false, a zero and whatever is empty. -/
def isSet : Json → Bool
  | .null => false
  | .bool value => value
  | .int value => value != 0
  | .float value => !Decimal.isZero value
  | .str value => value != ""
  | .arr items => !items.isEmpty
  | .obj fields => !fields.isEmpty

/-- The value under a key, or a default. -/
def fieldD (fields : List (String × Json)) (key : String) (default : Json) : Json :=
  (Table.get? fields key).getD default

/-- A field read as a flag, with the value it has when it is absent. -/
def flag (fields : List (String × Json)) (key : String) (default : Bool) : Bool :=
  match Table.get? fields key with
  | none => default
  | some value => value.isSet

end Json

end DisplayNames
