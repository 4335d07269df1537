import Tabletop.Number.Numeral

/-!
# Writing numbers

Two texts of a number. `Number.display` is for people: always positional, whole numbers without a
point. `Number.document` is the numeral in documents: positional in a middle range of sizes,
scientific outside it, and always told apart from an integer by a point or an exponent.

Both write the fewest digits that read back as the nearest number; where two candidates are equally
near, people see the larger one and documents the even one.
-/

namespace Tabletop

namespace Decimal

/-- The digits before and after the point when there is no exponent, padded with zeros as needed. -/
def split (d : Decimal) : List Char × List Char :=
  let ds := digitsOf d.digits
  let places := (-d.exponent).toNat
  if 0 ≤ d.exponent then (ds ++ List.replicate d.exponent.toNat '0', [])
  else if places < ds.length then
    (ds.take (ds.length - places), ds.drop (ds.length - places))
  else (['0'], List.replicate (places - ds.length) '0' ++ ds)

/-- The numeral without an exponent. -/
def positional (negative : Bool) (d : Decimal) : Numeral := ⟨negative, d.split.1, d.split.2, 0⟩

/-- The power of ten of the first digit. -/
def leadingExponent (d : Decimal) : Int := d.exponent + ((digitsOf d.digits).length - 1 : Nat)

/-- The numeral with one digit before the point and the rest after it. -/
def scientific (negative : Bool) (d : Decimal) : Numeral :=
  ⟨negative, (digitsOf d.digits).take 1, (digitsOf d.digits).drop 1, d.leadingExponent⟩

/-- The numeral in documents: positional while the first digit stands from `10 ^ -5` to `10 ^ 15`,
scientific otherwise. A whole number written positionally ends in `.0`. -/
def document (negative : Bool) (d : Decimal) : Numeral :=
  if -5 ≤ d.leadingExponent ∧ d.leadingExponent ≤ 15 then
    let n := d.positional negative
    if n.fraction.isEmpty then { n with fraction := ['0'] } else n
  else d.scientific negative

end Decimal

namespace Number

/-- The text of a number for people. -/
def display (x : Number) : String :=
  let b := x.magnitudeBits
  if infinityBits < b then "NaN"
  else if b = infinityBits then if x.isNegative then "-inf" else "inf"
  else String.ofList ((Decimal.shortest .up b).positional x.isNegative).text

/-- The numeral of a finite number in a document, where it is not written as an integer. -/
def document (x : Number) : Numeral :=
  (Decimal.shortest .even x.magnitudeBits).document x.isNegative

end Number

end Tabletop
