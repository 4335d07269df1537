/-!
# Doubles as exact fractions

The numbers of a rule set are doubles. Reading and printing them is done on their bits, with exact
natural arithmetic: a finite double is a significand times a power of two, and `nearestBits` is the
double nearest to a given fraction.

## Why bits

The sixty-three bits below the sign order the non-negative doubles, and the bits of the next larger
double are the next natural number. So rounding a significand up to `2 ^ 53` needs no case of its
own: the carry runs into the exponent field, and beyond the largest finite double it arrives at the
bits of infinity.
-/

namespace Tabletop

/-- The numbers of a rule set are doubles. -/
abbrev Number := Float

/-- The implicit leading bit of a significand, right above the fifty-two that are stored. -/
def leadingBit : Nat := 1 <<< 52

/-- The sign bit. -/
def signBit : Nat := 1 <<< 63

/-- The non-negative value `significand * 2 ^ exponent`. -/
structure Magnitude where
  /-- The integral factor. -/
  significand : Nat
  /-- The power of two it is scaled by. -/
  exponent : Int
deriving DecidableEq, Repr

namespace Magnitude

/-- The value that bits without a sign stand for. Subnormal doubles have no implicit leading bit. -/
def ofBits (b : Nat) : Magnitude :=
  if b < leadingBit then ⟨b, -1074⟩
  else ⟨leadingBit + b % leadingBit, (b / leadingBit : Nat) - 1075⟩

/-- The numerator of the value, over `den`. -/
def num (v : Magnitude) : Nat := v.significand <<< v.exponent.toNat

/-- The denominator of the value, a power of two. -/
def den (v : Magnitude) : Nat := 1 <<< (-v.exponent).toNat

end Magnitude

/-! ## Rounding a fraction -/

/-- The bits of infinity: the exponent field full, the rest empty. -/
def infinityBits : Nat := 2047 * leadingBit

/-- The quotient `num / den` rounded to a natural number, a half to the even neighbour. -/
def roundHalfEven (num den : Nat) : Nat :=
  let q := num / den
  let r := num % den
  if 2 * r < den then q else if den < 2 * r then q + 1 else q + q % 2

/-- The binary logarithm of a positive fraction, rounded down. The logarithms of numerator and
denominator leave two candidates, and one comparison decides. -/
def ratioLog2 (num den : Nat) : Int :=
  let a : Int := num.log2 - den.log2
  if num <<< (-a).toNat < den <<< a.toNat then a - 1 else a

/-- The bits of the double nearest to `num / den`, ties to even. The unit in the last place is the
one that leaves fifty-three digits, but never below the least subnormal. -/
def nearestBits (num den : Nat) : Nat :=
  if num = 0 then 0
  else
    let unit := max (ratioLog2 num den - 52) (-1074)
    let significand := roundHalfEven (num <<< (-unit).toNat) (den <<< unit.toNat)
    min ((unit + 1074).toNat * leadingBit + significand) infinityBits

/-! ## Numbers and their bits -/

namespace Number

/-- The bits of a number without its sign. -/
def magnitudeBits (x : Number) : Nat := x.toBits.toNat % signBit

/-- Whether the sign bit is set; negative zero has it too. -/
def isNegative (x : Number) : Bool := signBit ≤ x.toBits.toNat

/-- A number is finite when its exponent field is not full. -/
def isFinite (x : Number) : Bool := x.magnitudeBits < infinityBits

/-- The number with the given sign and the given other bits. -/
def ofMagnitudeBits (negative : Bool) (b : Nat) : Number :=
  Float.ofBits (UInt64.ofNat (if negative then signBit + b else b))

/-- The number nearest to an integer. -/
def ofInt (i : Int) : Number := ofMagnitudeBits (decide (i < 0)) (nearestBits i.natAbs 1)

/-- The exact value of a finite whole number; negative zero counts as zero. -/
def toInt? (x : Number) : Option Int :=
  let v := Magnitude.ofBits x.magnitudeBits
  if x.isFinite && v.num % v.den = 0 then
    some (if x.isNegative then -(v.num / v.den : Nat) else (v.num / v.den : Nat))
  else none

end Number

end Tabletop
