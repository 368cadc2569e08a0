import PooledBuffers.Text.Describe

/-!
# Numbers in decimal

* `roundHalfEven` — a quotient of naturals rounded to the nearest integer, ties to the even one.
* `fixedPlaces` — a quotient with a fixed number of decimal places.
* `Binary64` — a 64-bit floating-point number as its bit pattern, with the comparison of the
  floating-point standard: zeros of both signs are equal, and a NaN differs from itself.
* `Binary64.shortestDigits` — the fewest decimal digits that read back as the same number, and
  of those the nearest to it.
-/

namespace PooledBuffers

/-! ## Rounded quotients -/

/-- The integer nearest to `num / den`; a tie goes to the even neighbour. -/
def roundHalfEven (num den : Nat) : Nat :=
  let down := num / den
  let rest := num % den
  if 2 * rest < den then down
  else if den < 2 * rest then down + 1
  else if down % 2 = 0 then down else down + 1

/-- The quotient `num / den` in decimal with `places` digits after the point. -/
def fixedPlaces (num den places : Nat) : String :=
  let scaled := roundHalfEven (num * Nat.pow 10 places) den
  let digits := toString scaled
  let padded := "".pushn '0' (places + 1 - digits.length) ++ digits
  let chars := padded.toList
  let whole := chars.take (chars.length - places)
  let fraction := chars.drop (chars.length - places)
  if places = 0 then String.ofList whole
  else String.ofList whole ++ "." ++ String.ofList fraction

/-! ## Floating-point numbers as bit patterns -/

/-- A 64-bit floating-point number, kept as its bit pattern: one sign bit, eleven bits of biased
exponent and 52 bits of fraction. -/
structure Binary64 where
  bits : UInt64
  deriving DecidableEq, Repr, Inhabited

namespace Binary64

/-- The biased exponent, from 0 to 2047. -/
def exponent (x : Binary64) : Nat :=
  x.bits.toNat >>> 52 % 0x800

/-- The fraction below the leading bit. -/
def fraction (x : Binary64) : Nat :=
  x.bits.toNat % 0x10000000000000

def isNegative (x : Binary64) : Bool :=
  0x8000000000000000 ≤ x.bits.toNat

def isNaN (x : Binary64) : Bool :=
  x.exponent = 2047 && x.fraction != 0

def isInfinite (x : Binary64) : Bool :=
  x.exponent = 2047 && x.fraction = 0

def isZero (x : Binary64) : Bool :=
  x.bits.toNat % 0x8000000000000000 = 0

/-- Equality of the numbers that two patterns stand for: no NaN equals anything, and the two
zeros are equal. -/
protected def equals (x y : Binary64) : Bool :=
  !x.isNaN && !y.isNaN && (x.bits = y.bits || x.isZero && y.isZero)

instance : BEq Binary64 := ⟨Binary64.equals⟩

/-- The integer significand of a finite number's magnitude. -/
def significand (x : Binary64) : Nat :=
  if x.exponent = 0 then x.fraction else x.fraction + 0x10000000000000

/-- The power of two that the significand of a finite number is scaled by. -/
def scale (x : Binary64) : Int :=
  if x.exponent = 0 then -1074 else (x.exponent : Int) - 1075

/-- The magnitude of a finite number as numerator and denominator. -/
def ratio (x : Binary64) : Nat × Nat :=
  if 0 ≤ x.scale then (x.significand <<< x.scale.toNat, 1)
  else (x.significand, 1 <<< (-x.scale).toNat)

/-! ## Shortest digits -/

/-- The largest power of ten not above the positive quotient `num / den`, for quotients that
are at least `10 ^ (-400)`. -/
def decimalExponent (num den : Nat) : Int :=
  ((Nat.toDigits 10 (num * Nat.pow 10 400 / den)).length : Int) - 401

/-- One grid of decimal numbers: the multiples of `10 ^ power`. Answers the multiple nearest to
a positive finite number among its two neighbours on the grid, if it reads back as that number.
The reals that do are those no further than half a step from it, the ends included for an even
significand; below a power of two the step is half as long. -/
def onGrid (x : Binary64) (power : Int) : Option Nat :=
  let shift := x.scale - 2
  let up (n : Nat) : Nat := n <<< shift.toNat * Nat.pow 10 (-power).toNat
  let unit := 1 <<< (-shift).toNat * Nat.pow 10 power.toNat
  let middle := up (4 * x.significand)
  let high := up (4 * x.significand + 2)
  let low := up (4 * x.significand - (if x.fraction = 0 ∧ 1 < x.exponent then 1 else 2))
  let even := x.significand % 2 == 0
  let inside (n : Nat) : Bool :=
    (low < n * unit || even && low == n * unit) && (n * unit < high || even && n * unit == high)
  let below := middle / unit
  let above := below + 1
  let aboveNearer := above * unit - middle ≤ middle - below * unit
  match inside below, inside above with
  | true, true => some (if aboveNearer then above else below)
  | true, false => some below
  | false, true => some above
  | false, false => none

/-- The first hit on the grids of one, two, … seventeen digits: the digits and the power of ten
that scales them. -/
def shortestDigits (x : Binary64) : Nat × Int :=
  let (num, den) := x.ratio
  let top := decimalExponent num den
  let powers := (List.range 17).map fun (n : Nat) => top - n
  let hits := powers.filterMap fun power => (x.onGrid power).map (·, power)
  hits.headD (num / den, 0)

/-- The digits without zeros at the end, and the power of ten of the last one kept. -/
def trimZeros : List Char → Int → List Char × Int
  | [], power => ([], power)
  | c :: rest, power => if c = '0' then trimZeros rest (power + 1) else ((c :: rest).reverse, power)

/-- Digits in positional notation, with at least one place after the point. -/
def positional (digits : List Char) (power : Int) : String :=
  if 0 ≤ power then
    String.ofList (digits ++ List.replicate power.toNat '0') ++ ".0"
  else
    let places := (-power).toNat
    let padded := List.replicate (places + 1 - digits.length) '0' ++ digits
    String.ofList (padded.take (padded.length - places)) ++ "." ++
      String.ofList (padded.drop (padded.length - places))

/-- Digits in scientific notation: one before the point, and no point when there is one only. -/
def scientific (digits : List Char) (power : Int) : String :=
  let exponent := power + digits.length - 1
  let point := if digits.length ≤ 1 then "" else "."
  String.ofList (digits.take 1) ++ point ++ String.ofList (digits.drop 1) ++ "e"
    ++ toString exponent

/-- Shortest digits that read back, positional from `10 ^ (-4)` to below `10 ^ 16`. -/
def toText (x : Binary64) : String :=
  let sign := if x.isNegative then "-" else ""
  if x.isNaN then "NaN"
  else if x.isInfinite then sign ++ "inf"
  else if x.isZero then sign ++ "0.0"
  else
    let (n, power) := x.shortestDigits
    let (digits, power) := trimZeros (Nat.toDigits 10 n).reverse power
    let (num, den) := x.ratio
    if num * Nat.pow 10 4 < den ∨ den * Nat.pow 10 16 ≤ num then sign ++ scientific digits power
    else sign ++ positional digits power

instance : Describe Binary64 := ⟨toText⟩

end Binary64

end PooledBuffers
