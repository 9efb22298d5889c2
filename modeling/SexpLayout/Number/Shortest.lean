import SexpLayout.Number.Binary64

/-!
# Shortest decimals

The shortest decimal of a positive binary number: the fewest digits that read back as the number,
and of the decimals with so many digits the nearest one, a tie going to the even last digit.

The reals that round to the number form an interval, whose ends belong to it if the significand is
even.  On the grid of decimals with a given number of digits, only the two neighbours of the number
need to be tried, and 17 digits always suffice.  All comparisons are made in natural numbers.
-/

namespace SexpLayout.Binary64

/-- A positive number with the interval of the reals that round to it, all as multiples of
`1 / unit`. -/
structure Rounding where
  value : Nat
  low : Nat
  high : Nat
  unit : Nat
  closed : Bool

/-- The rounding interval of `m * 2 ^ e`.  Below a power of two the numbers lie twice as close. -/
def rounding (m : Nat) (e : Int) : Rounding :=
  let below := if m = twoTo 52 && minExponent < e then 1 else 2
  let scale := twoTo (e - 2).toNat
  { value := 4 * m * scale
    low := (4 * m - below) * scale
    high := (4 * m + 2) * scale
    unit := twoTo (2 - e).toNat
    closed := m % 2 = 0 }

/-- The position of the decimal point: the number lies in `[10 ^ (p - 1), 10 ^ p)`. -/
def Rounding.point (r : Rounding) : Int :=
  (Nat.toDigits 10 (r.value * tenTo 400 / r.unit)).length - 400

/-- `d * 10 ^ k` rounds to the number. -/
def Rounding.holds (r : Rounding) (d : Nat) (k : Int) : Bool :=
  let x := d * tenTo k.toNat * r.unit
  let scale := tenTo (-k).toNat
  if r.closed then r.low * scale ≤ x && x ≤ r.high * scale
  else r.low * scale < x && x < r.high * scale

/-- The nearest decimal `d * 10 ^ k` that rounds to the number, among its two neighbours on the
grid. -/
def Rounding.onGrid? (r : Rounding) (k : Int) : Option Nat :=
  let num := r.value * tenTo (-k).toNat
  let den := r.unit * tenTo k.toNat
  let d := num / den
  let nearest := roundQuotient num den
  match r.holds d k, r.holds (d + 1) k with
  | true, true => some nearest
  | true, false => some d
  | false, true => some (d + 1)
  | false, false => none

/-- The first grid from `n` digits on that has a decimal for the number. -/
def Rounding.search (r : Rounding) (point : Int) : (tries n : Nat) → Nat × Int
  | 0, n => (r.value * tenTo (n - point).toNat / (r.unit * tenTo (point - n).toNat), point - n)
  | tries + 1, n =>
    match r.onGrid? (point - n) with
    | some d => (d, point - n)
    | none => r.search point tries (n + 1)

/-- The digits of a natural number without the zeros at the end. -/
def trimZeros (ds : List Char) : List Char := (ds.reverse.dropWhile (· = '0')).reverse

/-- The digits of the shortest decimal of `m * 2 ^ e`, and the position of the decimal point in
front of which they stand: `0.d₁d₂… * 10 ^ p`. -/
def shortest (m : Nat) (e : Int) : List Char × Int :=
  let r := rounding m e
  let (d, k) := r.search r.point 17 1
  let ds := Nat.toDigits 10 d
  (trimZeros ds, ds.length + k)

end SexpLayout.Binary64
