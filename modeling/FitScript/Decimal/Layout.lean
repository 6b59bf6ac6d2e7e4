import FitScript.Decimal.Shortest

/-!
# Layout of decimals

How the shortest decimal of a double is written out.

* `Layout`: the decisions of one written form; `Layout.write` follows them.
* `writeDouble`: a double in a layout.
-/

namespace FitScript.Decimal

/-- Which numbers are written without an exponent: those whose first digit stands for a power
    of ten between two bounds. -/
structure Layout where
  least : Int
  greatest : Int

/-- A whole number is marked by `.0`; a single digit before an exponent is not. The exponent has
    a sign and no leading zero. -/
def Layout.write (layout : Layout) (d : Numeral) : String :=
  let digits := (Nat.toDigits 10 d.digits).reverse.dropWhile (· == '0') |>.reverse
  let leading := d.exponent + (Interval.digitCount d.digits : Int) - 1
  if layout.least ≤ leading ∧ leading ≤ layout.greatest then
    if leading < 0 then
      "0." ++ String.ofList (List.replicate (-leading - 1).toNat '0' ++ digits)
    else
      let whole := leading.toNat + 1
      let padded := digits ++ List.replicate (whole - digits.length) '0'
      let fraction := digits.drop whole
      String.ofList (padded.take whole) ++ "." ++
        (if fraction = [] then "0" else String.ofList fraction)
  else
    let mark := if leading < 0 then "e-" else "e+"
    let fraction := digits.drop 1
    String.ofList (digits.take 1) ++
      (if fraction = [] then "" else "." ++ String.ofList fraction) ++
      mark ++ toString leading.natAbs

/-- The bit of a double's sign, above those of its exponent. -/
def signUnit : Nat := 0x8000000000000000

/-- The lowest bit of a double's exponent, above the 52 of its fraction. -/
def exponentUnit : Nat := 0x10000000000000

/-- A finite double in a layout. -/
def writeDouble (layout : Layout) (x : Float) : String :=
  let bits := x.toBits.toNat
  let sign := if bits < signUnit then "" else "-"
  let biased : Nat := bits % signUnit / exponentUnit
  let fraction : Nat := bits % exponentUnit
  if biased = 0 ∧ fraction = 0 then sign ++ "0.0"
  else
    let interval :=
      if biased = 0 then Interval.ofDouble fraction (-1074) false
      else Interval.ofDouble (fraction + exponentUnit) ((biased : Int) - 1075)
        (fraction == 0 && 1 < biased)
    sign ++ layout.write interval.shortest

end FitScript.Decimal
