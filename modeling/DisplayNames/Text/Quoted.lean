import DisplayNames.Text.Hex
import DisplayNames.Text.Printable

/-!
# Quoted text

Names are quoted when a message has to show one that may be empty, contain blanks or hold
characters that do not print.  The quote is an apostrophe, unless the text holds an apostrophe and
no double quote; inside, the quote and the backslash take a backslash, line feed, carriage return
and tab have their letter, and every other unprintable character is spelled by its code point in
two, four or eight hexadecimal digits.

## Main definitions

* `DisplayNames.Text.quoteMark` — the quote a text takes.
* `DisplayNames.Text.escapeChar` — one character inside quotes.
* `DisplayNames.Text.quoted` — a text between its quotes.
* `DisplayNames.Text.quotedOption` — the same for a name that may be absent.
-/

set_option relaxedAutoImplicit false
set_option autoImplicit false

namespace DisplayNames

namespace Text

/-- The double quote if the text holds an apostrophe and no double quote, else the apostrophe. -/
def quoteMark (s : List Char) : Char :=
  if s.contains '\'' && !s.contains '"' then '"' else '\''

/-- A code point by its shortest escape of two, four or eight digits. -/
def codePointEscape (n : Nat) : List Char :=
  if n < 0x100 then '\\' :: 'x' :: hexDigits 2 n
  else if n < 0x10000 then '\\' :: 'u' :: hexDigits 4 n
  else '\\' :: 'U' :: hexDigits 8 n

/-- One character of a text quoted by `mark`. -/
def escapeChar (mark c : Char) : List Char :=
  if c = mark ∨ c = '\\' then ['\\', c]
  else if c = '\n' then ['\\', 'n']
  else if c = '\r' then ['\\', 'r']
  else if c = '\t' then ['\\', 't']
  else if isPrintable c then [c]
  else codePointEscape c.toNat

/-- A text between its quotes. -/
def quoted (s : String) : String :=
  let mark := quoteMark s.toList
  String.ofList (mark :: s.toList.flatMap (escapeChar mark) ++ [mark])

/-- A name between its quotes; an absent name is the bare word. -/
def quotedOption : Option String → String
  | none => "None"
  | some s => quoted s

end Text

end DisplayNames
