import Tabletop.Number.Binary

/-!
# Decimals

A decimal is a natural number of units `10 ^ exponent`. `Decimal.toBits` reads one as a double,
correctly rounded; `Decimal.shortest` goes the other way and picks the fewest digits that read
back.

## The search

A decimal with `n` digits lies on the grid of spacing `10 ^ (k - n)`, where `k` is the number of
digits before the point. If any point of that grid reads back to the double, then so does one of
the two neighbours of the double on it. So it is enough to test two candidates for each
`n = 1, 2, …, 17`, and what is returned passed the very test that reading applies.
-/

namespace Tabletop

/-- The power of ten. -/
def tenTo (n : Nat) : Nat := Nat.pow 10 n

/-- The value `digits * 10 ^ exponent`. -/
structure Decimal where
  /-- The digits, read as one natural number. -/
  digits : Nat
  /-- The power of ten they are scaled by. -/
  exponent : Int
deriving DecidableEq, Repr

namespace Decimal

/-! ## Normal form -/

/-- Moves trailing zeros of the digits into the exponent, at most as many as the fuel. -/
def stripZeros : Nat → Nat → Int → Decimal
  | 0, d, e => ⟨d, e⟩
  | fuel + 1, d, e => if d % 10 = 0 then stripZeros fuel (d / 10) (e + 1) else ⟨d, e⟩

/-- The one way to write the value without trailing zeros. A positive number has fewer trailing
zeros than binary digits, which bounds the stripping. -/
def normalize (d : Decimal) : Decimal :=
  if d.digits = 0 then ⟨0, 0⟩ else stripZeros d.digits.log2 d.digits d.exponent

/-! ## Reading -/

/-- The bits of the double nearest to the decimal. Far outside the range of doubles the answer is
infinity or zero, whatever the digits, and no power of ten has to be formed. -/
def toBits (d : Decimal) : Nat :=
  let c := d.normalize
  if 310 < c.exponent then infinityBits
  else if c.exponent + c.digits.log2 < -331 then 0
  else nearestBits (c.digits * tenTo c.exponent.toNat) (tenTo (-c.exponent).toNat)

/-- The number nearest to the decimal, under a sign. -/
def toNumber (negative : Bool) (d : Decimal) : Number :=
  Number.ofMagnitudeBits negative d.toBits

/-! ## The fewest digits that read back -/

/-- Which of two candidates is taken when the value lies exactly between them. -/
inductive Tie where
  /-- The larger one. -/
  | up
  /-- The one whose last digit is even. -/
  | even
deriving DecidableEq, Repr

/-- The least `k` with `num / den < 10 ^ k`. The binary logarithm settles it up to two steps. -/
def scaleOf (num den : Nat) : Int :=
  let k := ratioLog2 num den * 30103 / 100000
  if below k then k else if below (k + 1) then k + 1 else k + 2
where
  /-- Whether the fraction is below the power of ten. -/
  below (k : Int) : Bool := num * tenTo (-k).toNat < den * tenTo k.toNat

/-- The neighbour of the value on the grid of spacing `10 ^ e` that reads back to `bits`: the
nearer one if both do. -/
def onGrid? (tie : Tie) (bits : Nat) (e : Int) : Option Decimal :=
  let v := Magnitude.ofBits bits
  let num := v.num * tenTo (-e).toNat
  let den := v.den * tenTo e.toNat
  let below : Decimal := ⟨num / den, e⟩
  let above : Decimal := ⟨num / den + 1, e⟩
  if below.toBits = bits then
    if above.toBits = bits then
      let middle := (2 * (num / den) + 1) * den
      if 2 * num < middle then some below
      else if middle < 2 * num then some above
      else match tie with
        | .up => some above
        | .even => if num / den % 2 = 0 then some below else some above
    else some below
  else if above.toBits = bits then some above
  else none

/-- The decimal expansion of a double, which always ends. -/
def exact (bits : Nat) : Decimal :=
  let v := Magnitude.ofBits bits
  if 0 ≤ v.exponent then ⟨v.num, 0⟩
  else ⟨v.significand * Nat.pow 5 (-v.exponent).toNat, v.exponent⟩

/-- The fewest digits that read back to a finite double, without trailing zeros. Seventeen digits
are always enough; were they not, the whole expansion would be written. -/
def shortest (tie : Tie) (bits : Nat) : Decimal :=
  let v := Magnitude.ofBits bits
  let k := scaleOf v.num v.den
  let found? := (List.range 17).findSome? fun (n : Nat) ↦ onGrid? tie bits (k - (n + 1))
  (found?.getD (exact bits)).normalize

end Decimal

end Tabletop
