import DisplayNames.Json.Basic
import DisplayNames.Text.Hex

/-!
# Reading JSON

A strict reader: blanks are space, tab, line feed and carriage return; strings hold no raw control
character; numbers have no superfluous zeros; nothing follows the value but blanks.  Beyond the
standard it takes the words `NaN`, `Infinity` and `-Infinity` for doubles.  A number is an integer
of any size unless it has a point or an exponent.  When an object repeats a key, the key keeps its
first place and takes the last value.

A reader takes the characters and gives back the value and the characters behind it.

## Main definitions

* `DisplayNames.Json.Reader.number` — a number.
* `DisplayNames.Json.Reader.stringBody` — a string behind its opening quote.
* `DisplayNames.Json.Reader.value` — a value, with a bound on the nesting of calls.
* `DisplayNames.Json.read?` — a whole text.
-/

set_option relaxedAutoImplicit false
set_option autoImplicit false

namespace DisplayNames

namespace Json

namespace Reader

/-- The four blanks. -/
def isBlank (c : Char) : Bool := c = ' ' ∨ c = '\t' ∨ c = '\n' ∨ c = '\r'

/-- The text behind the blanks at its front. -/
def skipBlanks (s : List Char) : List Char := s.dropWhile isBlank

/-- The text behind a word. -/
def word? : (word s : List Char) → Option (List Char)
  | [], s => some s
  | _ :: _, [] => none
  | c :: word, d :: s => if c = d then word? word s else none

/-! ## Numbers -/

/-- A run of decimal digits and the rest. -/
def digitRun (s : List Char) : List Char × List Char := s.span Char.isDigit

/-- The number that a run of digits denotes. -/
def digitsValue (digits : List Char) : Nat :=
  digits.foldl (fun n c => 10 * n + (c.toNat - '0'.toNat)) 0

/-- The digits of a fraction, if the text goes on with a point and a digit. -/
def fraction : List Char → List Char × List Char
  | '.' :: s =>
    match digitRun s with
    | ([], _) => ([], '.' :: s)
    | run => run
  | s => ([], s)

/-- The digits of an exponent and its sign, if the text goes on with a complete one. -/
def exponent? : List Char → Option (Int × List Char)
  | c :: s =>
    if c = 'e' ∨ c = 'E' then
      let (negative, body) := match s with
        | '-' :: rest => (true, rest)
        | '+' :: rest => (false, rest)
        | rest => (false, rest)
      match digitRun body with
      | ([], _) => none
      | (digits, rest) =>
        some ((if negative then -(digitsValue digits : Int) else digitsValue digits), rest)
    else none
  | [] => none

/-- The double nearest to `digits * 10 ^ power`.  Far outside the range of doubles the power is not
even computed. -/
def nearestDouble (digits : Nat) (power : Int) : Float :=
  let size : Int := (Nat.repr digits).length + power
  if digits = 0 ∨ size < -400 then 0.0
  else if 400 < size then 1.0 / 0.0
  else Float.ofScientific digits (power < 0) power.natAbs

/-- A number without its sign. -/
def unsigned (negative : Bool) (whole rest : List Char) : Json × List Char :=
  let (behindPoint, afterPoint) := fraction rest
  let exponent := exponent? afterPoint
  match behindPoint, exponent with
  | [], none =>
    let n : Int := digitsValue whole
    (.int (if negative then -n else n), afterPoint)
  | _, _ =>
    let power := (exponent.map (·.1)).getD 0 - (behindPoint.length : Int)
    let x := nearestDouble (digitsValue (whole ++ behindPoint)) power
    (.float (if negative then -x else x), (exponent.map (·.2)).getD afterPoint)

/-- A number: its whole part is a zero or starts with another digit. -/
def number (s : List Char) : Option (Json × List Char) :=
  let (negative, body) := match s with
    | '-' :: rest => (true, rest)
    | rest => (false, rest)
  match body with
  | '0' :: rest => some (unsigned negative ['0'] rest)
  | c :: rest =>
    if c.isDigit then
      let (digits, behind) := digitRun rest
      some (unsigned negative (c :: digits) behind)
    else none
  | [] => none

/-! ## Strings -/

/-- The characters with a letter of their own behind a backslash. -/
def letterEscape? : Char → Option Char
  | '"' => some '"'
  | '\\' => some '\\'
  | '/' => some '/'
  | 'b' => some (Char.ofNat 8)
  | 'f' => some (Char.ofNat 12)
  | 'n' => some '\n'
  | 'r' => some '\r'
  | 't' => some '\t'
  | _ => none

/-- The value of four hexadecimal digits. -/
def unit? (a b c d : Char) : Option Nat := do
  let a ← Text.hexValue? a
  let b ← Text.hexValue? b
  let c ← Text.hexValue? c
  let d ← Text.hexValue? d
  return ((a * 16 + b) * 16 + c) * 16 + d

/-- The code points and UTF-16 units of a string behind its opening quote. -/
def stringUnits : List Char → Option (List Nat × List Char)
  | [] => none
  | '"' :: rest => some ([], rest)
  | '\\' :: 'u' :: a :: b :: c :: d :: rest => do
    let unit ← unit? a b c d
    let (units, rest) ← stringUnits rest
    return (unit :: units, rest)
  | '\\' :: c :: rest => do
    let c ← letterEscape? c
    let (units, rest) ← stringUnits rest
    return (c.toNat :: units, rest)
  | c :: rest =>
    if c.toNat < 0x20 then none
    else do
      let (units, rest) ← stringUnits rest
      return (c.toNat :: units, rest)

/-- The character of a unit; a surrogate on its own has none and becomes the replacement
character.  This is a limit of texts made of characters: strings that differ in such surrogates
alone are read as one text, so that names that are spelled with them cannot be told apart. -/
def unitChar (unit : Nat) : Char :=
  if 0xd800 ≤ unit ∧ unit < 0xe000 then Char.ofNat 0xfffd else Char.ofNat unit

/-- The characters of a sequence of units: a high and a low surrogate together are one. -/
def joinUnits : List Nat → List Char
  | [] => []
  | [unit] => [unitChar unit]
  | high :: low :: rest =>
    if 0xd800 ≤ high ∧ high < 0xdc00 ∧ 0xdc00 ≤ low ∧ low < 0xe000 then
      Char.ofNat (0x10000 + (high - 0xd800) * 0x400 + (low - 0xdc00)) :: joinUnits rest
    else unitChar high :: joinUnits (low :: rest)

/-- A string behind its opening quote. -/
def stringBody (s : List Char) : Option (String × List Char) :=
  (stringUnits s).map fun (units, rest) => (String.ofList (joinUnits units), rest)

/-! ## Values -/

/-- The words that are values, with their values. -/
def words : List (String × Json) :=
  [("null", .null), ("true", .bool true), ("false", .bool false), ("NaN", .float (0.0 / 0.0)),
    ("Infinity", .float (1.0 / 0.0)), ("-Infinity", .float (-1.0 / 0.0))]

/-- A word that is a value. -/
def constant? (s : List Char) : Option (Json × List Char) :=
  words.findSome? fun (name, value) => (word? name.toList s).map fun rest => (value, rest)

mutual

/-- A value that starts at the first character. -/
def value : (fuel : Nat) → List Char → Option (Json × List Char)
  | 0, _ => none
  | fuel + 1, s =>
    match s with
    | '"' :: rest => (stringBody rest).map fun (text, rest) => (.str text, rest)
    | '[' :: rest =>
      match skipBlanks rest with
      | ']' :: rest => some (.arr [], rest)
      | rest => (items fuel rest).map fun (items, rest) => (.arr items, rest)
    | '\x7b' :: rest =>
      match skipBlanks rest with
      | '\x7d' :: rest => some (.obj [], rest)
      | rest => (fields fuel [] rest).map fun (fields, rest) => (.obj fields, rest)
    | s => (constant? s).or (number s)

/-- The items of a list up to its closing bracket. -/
def items : (fuel : Nat) → List Char → Option (List Json × List Char)
  | 0, _ => none
  | fuel + 1, s =>
    match value fuel s with
    | none => none
    | some (item, rest) =>
      match skipBlanks rest with
      | ']' :: rest => some ([item], rest)
      | ',' :: rest => (items fuel (skipBlanks rest)).map fun (items, rest) => (item :: items, rest)
      | _ => none

/-- The fields of an object up to its closing brace, behind those already read. -/
def fields : (fuel : Nat) → List (String × Json) → List Char →
    Option (List (String × Json) × List Char)
  | 0, _, _ => none
  | fuel + 1, before, s =>
    match s with
    | '"' :: rest =>
      match stringBody rest with
      | none => none
      | some (key, rest) =>
        match skipBlanks rest with
        | ':' :: rest =>
          match value fuel (skipBlanks rest) with
          | none => none
          | some (item, rest) =>
            let before := Table.insert before key item
            match skipBlanks rest with
            | '\x7d' :: rest => some (before, rest)
            | ',' :: rest => fields fuel before (skipBlanks rest)
            | _ => none
        | _ => none
    | _ => none

end

end Reader

/-- The value that a whole text denotes, if it is JSON. -/
def read? (text : String) : Option Json :=
  let s := text.toList
  match Reader.value (2 * s.length + 2) (Reader.skipBlanks s) with
  | none => none
  | some (value, rest) => if (Reader.skipBlanks rest).isEmpty then some value else none

end Json

end DisplayNames
