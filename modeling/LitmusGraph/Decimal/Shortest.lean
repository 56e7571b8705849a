import LitmusGraph.Decimal.Binary64
import LitmusGraph.Text.Basic

/-!
# Shortest decimals

Each value is written with the fewest digits that read back to it, the nearest such decimal if
there are several, and the one with the even last digit if two are equally near.

A decimal reads back when it lies between the midpoints to the two neighbouring values, midpoints
included when the significand is even. With `n` digits the candidates are the two neighbours of the
value on the grid of that many digits; the first grid with a candidate that reads back wins.
Seventeen digits always suffice; behind the search stands the exact decimal.

This is the text of a floating-point value, in messages and where `_parse_event` turns an observed value
into text.
-/

namespace LitmusGraph

namespace Binary64

/-- Compares `a * 10 ^ i` with `n * 2 ^ j`. -/
def compareScaled (a : Nat) (i : Int) (n : Nat) (j : Int) : Ordering :=
  compare (a * tenTo i.toNat * twoTo (-j).toNat) (n * twoTo j.toNat * tenTo (-i).toNat)

/-- Whether the decimal `digits * 10 ^ exponent` is nearest to the magnitude of `x`. -/
def readsBack (x : Binary64) (digits : Nat) (exponent : Int) : Bool :=
  let m := x.significand
  let low := compareScaled digits exponent (4 * m - if x.isGapNarrowBelow then 1 else 2) (x.scale - 2)
  let high := compareScaled digits exponent (4 * m + 2) (x.scale - 2)
  let even := m % 2 = 0
  (low == .gt || (even && low == .eq)) && (high == .lt || (even && high == .eq))

/-- The quotient, rounded down, of the magnitude of `x` by `10 ^ exponent`. -/
def gridFloor (x : Binary64) (exponent : Int) : Nat :=
  x.significand * twoTo x.scale.toNat * tenTo (-exponent).toNat
    / (twoTo (-x.scale).toNat * tenTo exponent.toNat)

/-- The better one of the two neighbours on the grid `10 ^ exponent`, if one reads back. -/
def candidate? (x : Binary64) (exponent : Int) : Option Nat :=
  let below := x.gridFloor exponent
  match x.readsBack below exponent, x.readsBack (below + 1) exponent with
  | false, false => none
  | true, false => some below
  | false, true => some (below + 1)
  | true, true =>
    match compareScaled (2 * below + 1) exponent (2 * x.significand) x.scale with
    | .lt => some (below + 1)
    | .gt => some below
    | .eq => some (if below % 2 = 0 then below else below + 1)

/-- The least `k` with the magnitude of `x` below `10 ^ k`, for a positive magnitude. Its digits
before the point, or the zeros behind the point, give it exactly. -/
def decimalPoint (x : Binary64) : Int :=
  let whole := x.gridFloor 0
  if whole ≠ 0 then (Nat.toDigits 10 whole).length
  else (Nat.toDigits 10 (x.gridFloor (-400))).length - 400

/-- The digits and the power of ten of the shortest decimal of a positive finite value. -/
def shortest (x : Binary64) : Nat × Int :=
  let point := x.decimalPoint
  let found := (List.range 17).findSome? fun (n : Nat) =>
    let exponent := point - (n + 1)
    (x.candidate? exponent).map fun digits => (digits, exponent)
  found.getD (x.gridFloor (min x.scale 0), min x.scale 0)

end Binary64

/-! ## Layout -/

/-- The layout of a decimal with the digits `digits`, whose point stands behind the first `point`
of them. Positional when the first digit stands for at least `10 ^ -4` and for less than
`10 ^ 16`, with at least one digit after the point; otherwise with a signed exponent of at least
two digits. -/
def Decimal.layout (digits : Text) (point : Int) : Text :=
  let zeros (n : Int) : Text := List.replicate n.toNat ('0' : CodePoint)
  if point ≤ -4 ∨ 16 < point then
    let mantissa : Text :=
      match digits with
      | first :: second :: rest => first :: ('.' : CodePoint) :: second :: rest
      | short => short
    let exponent := Text.ofNat (point - 1).natAbs
    mantissa ++ "e" ++ (if point ≤ 0 then "-" else "+") ++ zeros (2 - exponent.length) ++ exponent
  else if point ≤ 0 then "0." ++ zeros (-point) ++ digits
  else if digits.length ≤ point then digits ++ zeros (point - digits.length) ++ ".0"
  else digits.take point.toNat ++ "." ++ digits.drop point.toNat

namespace Binary64

/-- The value as text: the shortest decimal that reads back to it. -/
def toText (x : Binary64) : Text :=
  let magnitude : Text :=
    if x.isInfinite then "inf"
    else if x.significand = 0 then "0.0"
    else
      let (digits, exponent) := x.shortest
      let written := Text.ofNat digits
      let stripped := (written.reverse.dropWhile (· = ('0' : CodePoint))).reverse
      Decimal.layout stripped (written.length + exponent)
  if x.isNaN then "nan" else if x.isNegative then "-" ++ magnitude else magnitude

end Binary64

end LitmusGraph
