/-
Floating-point numbers of sixty-four bits, exact: a value is
`mantissa * 2 ^ exponent`. A decimal is read to the nearest value, a tie
to the even mantissa; a value is written with the fewest digits that
read back to it, of which the nearest to the value are taken.

`digits` gives those digits and the place of the point; how they are laid
out is each format's own affair.
-/
import TracedTransfer.Text.Number

namespace TracedTransfer

/-- A floating-point number of sixty-four bits. -/
inductive Binary64 where
  | finite (negative : Bool) (mantissa : Nat) (exponent : Int)
  | infinite (negative : Bool)
  | nan
deriving DecidableEq, Repr

namespace Binary64

/-- The least exponent of a value. -/
def minExponent : Int := -1074

/-- The greatest exponent of a value. -/
def maxExponent : Int := 971

/-- The least mantissa of fifty-three bits. -/
def leastMantissa : Nat := 4503599627370496

/-- A natural power of two or one, for an exponent of either sign. -/
def scaleUp (base : Nat) (e : Int) : Nat := Nat.pow base e.toNat

/-- The quotient of two numbers rounded to the nearest, a tie to the even one. -/
def roundDiv (num den : Nat) : Nat :=
  let q := num / den
  let r := num % den
  if den < 2 * r || (2 * r = den && q % 2 = 1) then q + 1 else q

/-- The exponent at which a positive quotient has a mantissa of fifty-three bits, if that is not
below the least exponent. -/
def exponentFor (num den : Nat) : Int :=
  let guess : Int := (Nat.log2 num : Int) - (Nat.log2 den : Int) - 53
  let at_ (e : Int) : Nat := (num * scaleUp 2 (-e)) / (den * scaleUp 2 e)
  let e := if at_ guess < 2 * leastMantissa then guess else guess + 1
  max e minExponent

/-- The value nearest to a quotient. -/
def ofQuotient (negative : Bool) (num den : Nat) : Binary64 :=
  if num = 0 then .finite negative 0 minExponent
  else
    let e := exponentFor num den
    let m := roundDiv (num * scaleUp 2 (-e)) (den * scaleUp 2 e)
    let (m, e) := if m = 2 * leastMantissa then (leastMantissa, e + 1) else (m, e)
    if maxExponent < e then .infinite negative else .finite negative m e

/-- The value nearest to `n * 10 ^ e`. Exponents far beyond the range are cut first. -/
def ofDecimal (negative : Bool) (n : Nat) (e : Int) : Binary64 :=
  if n = 0 then .finite negative 0 minExponent
  else if 400 < e then .infinite negative
  else if e + (Nat.repr n).length < -400 then .finite negative 0 minExponent
  else ofQuotient negative (n * scaleUp 10 e) (scaleUp 10 (-e))

-- ============================================================= digits

/-- Digits and the place of the point: `digits * 10 ^ exponent`. -/
structure Decimal where
  digits : Nat
  exponent : Int
deriving DecidableEq, Repr

/-- Whether `d * 10 ^ e` lies in the interval of what rounds to a mantissa at an exponent. The
ends belong to it if the mantissa is even. Everything is compared in quarters of the last place. -/
def roundsTo (m : Nat) (q : Int) (d : Nat) (e : Int) : Bool :=
  let num := d * scaleUp 10 e * scaleUp 2 (-q) * 4
  let den := scaleUp 10 (-e) * scaleUp 2 q
  let low := (if m = leastMantissa && minExponent < q then 4 * m - 1 else 4 * m - 2) * den
  let high := (4 * m + 2) * den
  if m % 2 = 0 then low ≤ num && num ≤ high else low < num && num < high

/-- The nearer to a value of its two neighbours among the multiples of `10 ^ e` that round to it. -/
def onGrid (m : Nat) (q : Int) (e : Int) : Option Nat :=
  let num := m * scaleUp 2 q * scaleUp 10 (-e)
  let den := scaleUp 2 (-q) * scaleUp 10 e
  let below := num / den
  let above := below + 1
  let lowFits := 0 < below && roundsTo m q below e
  let highFits := roundsTo m q above e
  if lowFits && highFits then
    let toLow := num - below * den
    let toHigh := above * den - num
    if toLow < toHigh || (toLow = toHigh && below % 2 = 0) then some below else some above
  else if lowFits then some below
  else if highFits then some above
  else none

/-- Tries grids from the coarsest on. -/
def findGrid (m : Nat) (q : Int) : Nat → Int → Decimal
  | 0, _ => ⟨0, 0⟩
  | tries + 1, e =>
    match onGrid m q e with
    | some d => ⟨d, e⟩
    | none => findGrid m q tries (e - 1)

/-- Digits without zeros at their end. -/
def trimZeros : Nat → Decimal → Decimal
  | 0, d => d
  | n + 1, d =>
    if d.digits ≠ 0 && d.digits % 10 = 0 then trimZeros n ⟨d.digits / 10, d.exponent + 1⟩ else d

/-- The fewest digits that read back to a positive value. -/
def digits (m : Nat) (q : Int) : Decimal :=
  let magnitude : Int := ((Nat.log2 m : Int) + q) * 30103 / 100000 + 2
  trimZeros 400 (findGrid m q 800 magnitude)

end Binary64

end TracedTransfer
