import DisplayNames.Decimal.Shortest

/-!
# How a double is written

The shortest decimal is written positionally, always with a point, while its leading digit stands
between the fourth place behind the point and the sixteenth in front of it.  Outside that range the
leading digit is followed by the rest behind a point and by an exponent of at least two digits with
its sign.  Zero keeps its sign.

## Main definitions

* `DisplayNames.Decimal.layout` — the text of a decimal.
* `DisplayNames.Decimal.Special` — the words for the values without a decimal.
* `DisplayNames.Decimal.textOf` — the text of a double.
-/

set_option relaxedAutoImplicit false
set_option autoImplicit false

namespace DisplayNames

namespace Decimal

/-- The decimal digits of a natural number. -/
def digitsOf (n : Nat) : List Char := (Nat.repr n).toList

/-- The exponent part: sign and at least two digits. -/
def exponentText (e : Int) : List Char :=
  let digits := digitsOf e.natAbs
  'e' :: (if e < 0 then '-' else '+') :: (if digits.length < 2 then '0' :: digits else digits)

/-- The text of a decimal other than zero. -/
def layout (d : Scientific) : List Char :=
  let digits := digitsOf d.digits
  let count : Int := digits.length
  -- The place of the leading digit: zero for the ones.
  let lead := count + d.power - 1
  if -4 ≤ lead ∧ lead < 16 then
    if 0 ≤ d.power then
      digits ++ List.replicate d.power.toNat '0' ++ ['.', '0']
    else if 0 ≤ lead then
      digits.take (lead + 1).toNat ++ '.' :: digits.drop (lead + 1).toNat
    else
      '0' :: '.' :: List.replicate (-lead - 1).toNat '0' ++ digits
  else
    match digits with
    | [] => exponentText lead
    | [c] => c :: exponentText lead
    | c :: rest => c :: '.' :: rest ++ exponentText lead

/-- The words for the values that have no decimal. -/
structure Special where
  nan : String
  infinity : String

/-- The words used in messages. -/
def Special.short : Special := ⟨"nan", "inf"⟩

/-- The words used in JSON text. -/
def Special.long : Special := ⟨"NaN", "Infinity"⟩

/-- The text of a double. -/
def textOf (words : Special) (x : Float) : String :=
  let bits := x.toBits.toNat
  let sign := if bits < pow2 63 then "" else "-"
  let magnitude := bits % pow2 63
  if magnitude = 0 then sign ++ "0.0"
  else if magnitude < 0x7ff * pow2 52 then
    sign ++ String.ofList (layout (shortest (Dyadic.ofBits magnitude)))
  else if magnitude = 0x7ff * pow2 52 then sign ++ words.infinity
  else words.nan

/-- Both zeros, the only doubles that count as false. -/
def isZero (x : Float) : Bool := x.toBits.toNat % pow2 63 = 0

end Decimal

end DisplayNames
