/-!
# Binary floating point of 64 bits

A `Binary64` is a bit pattern: a sign, eleven bits of exponent and 52 bits of fraction. A finite
value is `significand * 2 ^ scale`. `Binary64.ofDecimal` rounds a decimal to the nearest value,
a tie to the even significand, by exact arithmetic on naturals; beyond the greatest finite value
it gives an infinity.

These are the values that the decoder makes of numbers with a point or an exponent, which an event may
have for an observed value. Out of scope: all arithmetic, since the program does none on them.
-/

namespace LitmusGraph

/-- A number in decimal, `± digits * 10 ^ exponent`. -/
structure Decimal where
  /-- Whether a minus sign stands in front. -/
  negative : Bool
  /-- The digits, read as one number. -/
  digits : Nat
  /-- The power of ten. -/
  exponent : Int
deriving DecidableEq

/-- A floating-point value of 64 bits, by its bit pattern. -/
structure Binary64 where
  /-- The bit pattern. -/
  bits : UInt64
deriving DecidableEq

namespace Binary64

/-- A power of two. -/
def twoTo (n : Nat) : Nat := Nat.pow 2 n

/-- A power of ten. -/
def tenTo (n : Nat) : Nat := Nat.pow 10 n

/-- The bit pattern of infinity: all exponent bits set, no fraction. -/
def infinityBits : Nat := 0x7FF * twoTo 52

/-- The value with a sign and a pattern of 63 bits. -/
def ofMagnitude (negative : Bool) (magnitude : Nat) : Binary64 :=
  ⟨((if negative then twoTo 63 else 0) + magnitude).toUInt64⟩

/-- The infinity of a sign. -/
def infinity (negative : Bool) : Binary64 := ofMagnitude negative infinityBits

/-- The value that is not a number. -/
def nan : Binary64 := ofMagnitude false (infinityBits + twoTo 51)

/-- Whether the sign bit is set. -/
def isNegative (x : Binary64) : Bool := twoTo 63 ≤ x.bits.toNat

/-- The pattern without its sign bit. -/
def magnitude (x : Binary64) : Nat := x.bits.toNat % twoTo 63

/-- Whether the value is not a number. -/
def isNaN (x : Binary64) : Bool := infinityBits < x.magnitude

/-- Whether the value is an infinity. -/
def isInfinite (x : Binary64) : Bool := x.magnitude = infinityBits

/-- The bits of the exponent, as a number. -/
def exponentBits (x : Binary64) : Nat := x.magnitude / twoTo 52

/-- The bits of the fraction, as a number. -/
def fractionBits (x : Binary64) : Nat := x.magnitude % twoTo 52

/-- The factor in front of the power of two; below the normal range it has no leading one. -/
def significand (x : Binary64) : Nat :=
  if x.exponentBits = 0 then x.fractionBits else twoTo 52 + x.fractionBits

/-- The power of two. -/
def scale (x : Binary64) : Int := max x.exponentBits 1 - 1075

/-- Whether the gap to the value below is half the gap to the value above, as it is at a power of
two within the normal range. -/
def isGapNarrowBelow (x : Binary64) : Bool := x.fractionBits = 0 && 1 < x.exponentBits

/-- The quotient rounded to the nearest natural, a tie to the even one. -/
def roundQuotient (num den : Nat) : Nat :=
  let q := num / den
  let r := num % den
  if 2 * r < den ∨ (2 * r = den ∧ q % 2 = 0) then q else q + 1

/-- The pattern of the value nearest to a positive quotient. The leading bit of the quotient sets
the power of two, which does not go below that of the least values. A significand rounded up to the
next power of two carries into the exponent bits, and past the last exponent gives infinity. -/
def magnitudeOfQuotient (num den : Nat) : Nat :=
  let estimate : Int := num.log2 - den.log2
  let lead : Int :=
    if den * twoTo estimate.toNat ≤ num * twoTo (-estimate).toNat then estimate else estimate - 1
  let scale : Int := max (lead - 52) (-1074)
  let m := roundQuotient (num * twoTo (-scale).toNat) (den * twoTo scale.toNat)
  min ((scale + 1074).toNat * twoTo 52 + m) infinityBits

/-- The value nearest to a decimal. A decimal whose first digit stands above `10 ^ 309` is beyond
all finite values, and one whose digits all stand below `10 ^ -330` is nearest to zero, so those
are settled without computing the power. -/
def ofDecimal (d : Decimal) : Binary64 :=
  let width : Int := (Nat.toDigits 10 d.digits).length
  if d.digits = 0 ∨ d.exponent + width < -330 then ofMagnitude d.negative 0
  else if 310 < d.exponent + width then infinity d.negative
  else
    ofMagnitude d.negative
      (magnitudeOfQuotient (d.digits * tenTo d.exponent.toNat) (tenTo (-d.exponent).toNat))

end Binary64

end LitmusGraph
