/-!
# The shortest decimal of a double

A finite double stands for an interval of reals: all those that round to it.  Its display is the
decimal with the fewest digits inside that interval and, of those, the one nearest to the double.

A double is read as `mantissa * 2 ^ exponent`.  A decimal `digits * 10 ^ power` is compared with
the ends of the interval by multiplying both sides out to natural numbers, so nothing is rounded on
the way.  The search tries the grids of one, two, ... seventeen significant digits; on each only
the two neighbours of the double can be nearest.

## Main definitions

* `DisplayNames.Decimal.Dyadic` — a non-negative finite double.
* `DisplayNames.Decimal.Dyadic.contains` — the decimals that round to it.
* `DisplayNames.Decimal.shortest` — the selected decimal.
-/

set_option relaxedAutoImplicit false
set_option autoImplicit false

namespace DisplayNames

namespace Decimal

/-- A power of two. -/
def pow2 (n : Nat) : Nat := Nat.pow 2 n

/-- A power of ten. -/
def pow10 (n : Nat) : Nat := Nat.pow 10 n

/-- A non-negative finite double, `mantissa * 2 ^ exponent`. -/
structure Dyadic where
  mantissa : Nat
  exponent : Int
  /-- The next double below is only half as far away as the next one above. -/
  narrow : Bool
  deriving DecidableEq, Repr

/-- A decimal, `digits * 10 ^ power`. -/
structure Scientific where
  digits : Nat
  power : Int
  deriving DecidableEq, Repr

/-- The magnitude that the lower 63 bits of a finite double stand for. -/
def Dyadic.ofBits (bits : Nat) : Dyadic :=
  let fraction : Nat := bits % pow2 52
  let biased : Nat := bits / pow2 52 % pow2 11
  if biased = 0 then ⟨fraction, -1074, false⟩
  else ⟨pow2 52 + fraction, (biased : Int) - 1075, fraction == 0 && decide (1 < biased)⟩

/-- Compares `digits * 10 ^ power` with `m * 2 ^ e`. -/
def Scientific.compareDyadic (d : Scientific) (m : Nat) (e : Int) : Ordering :=
  compare (d.digits * pow10 d.power.toNat * pow2 (-e).toNat)
    (m * pow2 e.toNat * pow10 (-d.power).toNat)

/-- The decimal rounds to the double: it lies between the midpoints to the two neighbours.  The
midpoints themselves count exactly when the mantissa is even. -/
def Dyadic.contains (x : Dyadic) (d : Scientific) : Bool :=
  let below := d.compareDyadic (4 * x.mantissa - if x.narrow then 1 else 2) (x.exponent - 2)
  let above := d.compareDyadic (4 * x.mantissa + 2) (x.exponent - 2)
  let closed := x.mantissa % 2 == 0
  (below == .gt || closed && below == .eq) && (above == .lt || closed && above == .eq)

/-- The largest whole number of units `10 ^ power` that does not exceed the double. -/
def Dyadic.floorAt (x : Dyadic) (power : Int) : Nat :=
  x.mantissa * pow2 x.exponent.toNat * pow10 (-power).toNat /
    (pow10 power.toNat * pow2 (-x.exponent).toNat)

/-- The number of decimal digits in front of the point; zero or less counts the zeros behind it.
The guess from the binary size is at most one too small. -/
def Dyadic.magnitude (x : Dyadic) : Int :=
  let guess : Int := ((Nat.log2 x.mantissa : Int) + x.exponent) * 30103 / 100000
  let sure := guess - 1
  let candidates := (List.range 4).map fun (i : Nat) => sure + (i : Int)
  (candidates.find? fun k => (Scientific.mk 1 k).compareDyadic x.mantissa x.exponent == .gt).getD
    (sure + 4)

/-- The decimal of the grid `10 ^ power` that rounds to the double, the nearer one if both
neighbours do, and the even one if both are equally near. -/
def Dyadic.onGrid? (x : Dyadic) (power : Int) : Option Scientific :=
  let low : Scientific := ⟨x.floorAt power, power⟩
  let high : Scientific := ⟨low.digits + 1, power⟩
  match x.contains low, x.contains high with
  | true, true =>
    match (Scientific.mk (2 * low.digits + 1) power).compareDyadic (2 * x.mantissa) x.exponent with
    | .gt => some low
    | .lt => some high
    | .eq => some (if low.digits % 2 = 0 then low else high)
  | true, false => some low
  | false, true => some high
  | false, false => none

/-- Moves the zeros at the end of the digits into the power, at most `bound` of them. -/
def Scientific.strip : (bound : Nat) → Scientific → Scientific
  | 0, d => d
  | bound + 1, d =>
    if d.digits ≠ 0 ∧ d.digits % 10 = 0 then Scientific.strip bound ⟨d.digits / 10, d.power + 1⟩
    else d

/-- The shortest decimal of a double other than zero. -/
def shortest (x : Dyadic) : Scientific :=
  let magnitude := x.magnitude
  let found := (List.range 17).findSome? fun (n : Nat) => x.onGrid? (magnitude - n - 1)
  Scientific.strip 20 (found.getD ⟨x.floorAt (magnitude - 17), magnitude - 17⟩)

end Decimal

end DisplayNames
