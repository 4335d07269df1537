import Tabletop.Number.Decimal

/-!
# Numerals

A numeral is a decimal as it is written: its sign, the digits on both sides of the point, and its
exponent. Here are the parts that all numerals share, the text of a numeral, and the free form that
the console accepts: signs, a point without digits on one side of it, exponents, infinities and
not-a-number in any case.
-/

namespace Tabletop

/-- The decimal digits of a natural number. -/
def digitsOf (n : Nat) : List Char := Nat.toDigits 10 n

/-- The value of a decimal digit. -/
def digitValue (c : Char) : Nat := c.toNat - '0'.toNat

/-- The value of a run of decimal digits. -/
def digitsValue (ds : List Char) : Nat := ds.foldl (fun n c ↦ 10 * n + digitValue c) 0

/-- The value of a hexadecimal digit. -/
def hexDigit? (c : Char) : Option Nat :=
  if c.isDigit then some (digitValue c)
  else if 'a' ≤ c ∧ c ≤ 'f' then some (c.toNat - 'a'.toNat + 10)
  else if 'A' ≤ c ∧ c ≤ 'F' then some (c.toNat - 'A'.toNat + 10)
  else none

/-- A decimal numeral in its parts. -/
structure Numeral where
  /-- Whether it has a minus sign. -/
  negative : Bool
  /-- The digits before the point. -/
  whole : List Char
  /-- The digits after the point. -/
  fraction : List Char
  /-- The written exponent. -/
  exponent : Int
deriving DecidableEq, Repr

namespace Numeral

/-- The numeral of an integer. -/
def ofInt (i : Int) : Numeral := ⟨decide (i < 0), digitsOf i.natAbs, [], 0⟩

/-- The decimal that the parts stand for, without the sign: each digit after the point moves the
exponent down. -/
def toDecimal (n : Numeral) : Decimal :=
  ⟨digitsValue (n.whole ++ n.fraction), n.exponent - n.fraction.length⟩

/-- The number nearest to a numeral. -/
def toNumber (n : Numeral) : Number := n.toDecimal.toNumber n.negative

/-- The text of a numeral. An exponent of zero is left out, and so is a point without digits after
it. -/
def text (n : Numeral) : List Char :=
  let fraction := if n.fraction.isEmpty then [] else '.' :: n.fraction
  let exponent :=
    if n.exponent = 0 then []
    else 'e' :: (if n.exponent < 0 then '-' else '+') :: digitsOf n.exponent.natAbs
  (if n.negative then ['-'] else []) ++ n.whole ++ fraction ++ exponent

/-! ## The parts of a numeral -/

/-- Splits off an optional sign, `true` for minus. -/
def takeSign : List Char → Bool × List Char
  | '-' :: cs => (true, cs)
  | '+' :: cs => (false, cs)
  | cs => (false, cs)

/-- Splits off the digits a text begins with. -/
def takeDigits (cs : List Char) : List Char × List Char :=
  (cs.takeWhile Char.isDigit, cs.dropWhile Char.isDigit)

/-- Splits off an optional point and the digits after it. -/
def takeFraction : List Char → List Char × List Char
  | '.' :: cs => takeDigits cs
  | cs => ([], cs)

/-- Splits off an optional exponent. `none` if its mark is not followed by a digit. -/
def takeExponent? : List Char → Option (Int × List Char)
  | [] => some (0, [])
  | c :: cs =>
    if c = 'e' ∨ c = 'E' then
      let (negative, cs) := takeSign cs
      let (ds, rest) := takeDigits cs
      if ds.isEmpty then none
      else some (if negative then -(digitsValue ds : Int) else digitsValue ds, rest)
    else some (0, c :: cs)

/-- Reads a whole text as what follows the sign of a numeral, with at least one digit. -/
def ofChars? (negative : Bool) (cs : List Char) : Option Numeral := do
  let (whole, cs) := takeDigits cs
  let (fraction, cs) := takeFraction cs
  if whole.isEmpty && fraction.isEmpty then none
  else
    let (exponent, rest) ← takeExponent? cs
    if rest.isEmpty then some ⟨negative, whole, fraction, exponent⟩ else none

end Numeral

namespace Number

/-- The number whose bits are those of infinity, under a sign. -/
def infinity (negative : Bool) : Number := ofMagnitudeBits negative infinityBits

/-- What is not a number: any bits above those of infinity. -/
def nan : Number := ofMagnitudeBits false (infinityBits + leadingBit / 2)

/-- Reads a whole text as a number. -/
def ofText? (s : String) : Option Number :=
  let (negative, cs) := Numeral.takeSign s.toList
  let word := String.ofList (cs.map Char.toLower)
  if word = "inf" ∨ word = "infinity" then some (infinity negative)
  else if word = "nan" then some nan
  else (Numeral.ofChars? negative cs).map Numeral.toNumber

end Number

end Tabletop
