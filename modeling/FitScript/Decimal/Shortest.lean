/-!
# Shortest decimals

The decimal number with the fewest digits that reads back as a given binary number.

A positive double is `m · 2^q`. The reals that round to it form an interval around it, whose
ends belong to it exactly when `m` is even; below a power of two the interval is half as wide.
On the grid of the numbers with `n` digits only the two neighbours of the double can be nearest
to it, so the first grid on which one of them lies in the interval gives the shortest decimal.

* `Interval.ofDouble`: the interval of a positive double.
* `Interval.shortest`: the shortest decimal in an interval, the nearest one if there are two.
-/

namespace FitScript.Decimal

/-- A positive number between two bounds, all three over one denominator. -/
structure Interval where
  low : Nat
  value : Nat
  high : Nat
  denominator : Nat
  /-- Whether the bounds belong to the interval. -/
  closed : Bool

/-- A decimal number: `digits · 10^exponent`. -/
structure Numeral where
  digits : Nat
  exponent : Int

/-- The numbers that round to the double `m · 2^q`. If `narrow`, the next smaller double is
    half as far away as the next larger one. -/
def Interval.ofDouble (m : Nat) (q : Int) (narrow : Bool) : Interval :=
  let unit := Nat.pow 2 (q - 2).toNat
  { low := (if narrow then 4 * m - 1 else 4 * m - 2) * unit
    value := 4 * m * unit
    high := (4 * m + 2) * unit
    denominator := Nat.pow 2 (2 - q).toNat
    closed := m % 2 == 0 }

namespace Interval

/-- The interval times `10^k`. -/
def scale (i : Interval) (k : Int) : Interval :=
  let up := Nat.pow 10 k.toNat
  { i with
    low := i.low * up
    value := i.value * up
    high := i.high * up
    denominator := i.denominator * Nat.pow 10 (-k).toNat }

/-- Whether a whole number lies in the interval. -/
def contains (i : Interval) (n : Nat) : Bool :=
  let scaled := n * i.denominator
  if i.closed then i.low ≤ scaled && scaled ≤ i.high else i.low < scaled && scaled < i.high

/-- The whole number nearest to the value among those next to it and in the interval; of two
    equally near ones the even one. -/
def nearest? (i : Interval) : Option Nat :=
  let below := i.value / i.denominator
  match i.contains below, i.contains (below + 1) with
  | false, false => none
  | true, false => some below
  | false, true => some (below + 1)
  | true, true =>
    let fromBelow := i.value - below * i.denominator
    let fromAbove := (below + 1) * i.denominator - i.value
    if fromBelow < fromAbove then some below
    else if fromAbove < fromBelow then some (below + 1)
    else some (below + below % 2)

/-- How many decimal digits a number has. -/
def digitCount (n : Nat) : Nat :=
  (Nat.toDigits 10 n).length

/-- The power of ten of the first digit of the value: ten to it is at most the value. A value
    below one is compared with `10^-1`, `10^-2`, … in turn. -/
def leadingExponent (i : Interval) : Int :=
  let whole := i.value / i.denominator
  if 0 < whole then (digitCount whole : Int) - 1
  else
    let steps := (List.range 400).find? fun j => i.denominator ≤ i.value * Nat.pow 10 (j + 1)
    Int.negSucc (steps.getD 0)

/-- The decimal with at most `count` digits nearest to the value, if one is in the interval. -/
def onGrid? (i : Interval) (count : Nat) : Option Numeral :=
  let exponent := i.leadingExponent - (count - 1 : Nat)
  (i.scale (-exponent)).nearest?.map (⟨·, exponent⟩)

/-- The shortest decimal in the interval. Seventeen digits tell all doubles apart. -/
def shortest (i : Interval) : Numeral :=
  (((List.range 17).map (· + 1)).findSome? i.onGrid?).getD ⟨0, 0⟩

end Interval

end FitScript.Decimal
