import Tabletop.Number.Numeral

/-!
# Reading by scaling

The numbers of a document are read in two steps. As many of the first digits as fit into
sixty-four bits make a whole number, which is rounded to a double; and that is multiplied with, or
divided by, the power of ten that the point and the exponent ask for, and rounded again. The power
of ten is itself rounded once it no longer fits a double.

So what is read is near the numeral, but need not be the nearest number to it: `94.16999999999999`
reads as `94.17`. A numeral of few digits and a small exponent is always read exactly, since then
the only rounding is that of the last step.

There are two limits. A power beyond `10 ^ 308` is too large for anything but zero, and so is a
product that rounds to infinity: such a numeral cannot be read. A division by more than `10 ^ 308`
is done in several steps.
-/

namespace Tabletop

/-! ## One step at a time -/

/-- The bits of the double nearest to a product. -/
def productBits (a b : Nat) : Nat :=
  let v := Magnitude.ofBits a
  let w := Magnitude.ofBits b
  nearestBits (v.num * w.num) (v.den * w.den)

/-- The bits of the double nearest to a quotient. -/
def quotientBits (a b : Nat) : Nat :=
  let v := Magnitude.ofBits a
  let w := Magnitude.ofBits b
  nearestBits (v.num * w.den) (v.den * w.num)

/-- The largest power of ten that a double can be near to. -/
def maxPower : Nat := 308

/-- The bits of the double nearest to a power of ten. -/
def powerBits (k : Nat) : Nat := nearestBits (tenTo k) 1

/-- Multiplies by a power of ten, unless the product is too large. -/
def scaledUp? (bits k : Nat) : Option Nat :=
  if bits = 0 then some 0
  else if maxPower < k then none
  else
    let product := productBits bits (powerBits k)
    if product < infinityBits then some product else none

/-- Divides a number below `2 ^ 64` by a power of ten. The largest power that there is can be taken
out once; if it could be taken out again, nothing would be left. -/
def scaledDown (bits k : Nat) : Nat :=
  if k ≤ maxPower then quotientBits bits (powerBits k)
  else if k ≤ 2 * maxPower then
    quotientBits (quotientBits bits (powerBits maxPower)) (powerBits (k - maxPower))
  else 0

/-! ## Numerals -/

/-- Takes digits as long as the number that they continue stays within sixty-four bits. -/
def takeFitting (n : Nat) : List Char → Nat × List Char
  | [] => (n, [])
  | c :: cs =>
    if 10 * n + digitValue c < UInt64.size then takeFitting (10 * n + digitValue c) cs
    else (n, c :: cs)

namespace Numeral

/-- The digits that are read, as a decimal. A digit that does not fit counts as a zero before the
point and is left out behind it. -/
def fitting (n : Numeral) : Decimal :=
  let (digits, restOfWhole) := takeFitting 0 n.whole
  let (digits, restOfFraction) := takeFitting digits n.fraction
  ⟨digits, n.exponent + restOfWhole.length + restOfFraction.length - n.fraction.length⟩

/-- The number that is read from a numeral by scaling, if it is not too large. -/
def scaled? (n : Numeral) : Option Number :=
  let d := n.fitting
  let bits := nearestBits d.digits 1
  let scaled? :=
    if 0 ≤ d.exponent then scaledUp? bits d.exponent.toNat
    else some (scaledDown bits (-d.exponent).toNat)
  scaled?.map (Number.ofMagnitudeBits n.negative)

end Numeral

end Tabletop
