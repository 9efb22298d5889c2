/-!
# Binary64 numbers

The numbers of the 64-bit binary floating-point format, as exact values: not a number, an infinity,
or a sign, a significand and a power of two.  `Binary64.ofDecimal` is the number nearest to a
decimal, with ties going to the even significand; it is computed in natural numbers.
-/

namespace SexpLayout

/-- A number of the 64-bit binary format.  A finite one is `significand * 2 ^ exponent`, and its
significand has 53 bits unless its exponent is the least one. -/
inductive Binary64 where
  | nan
  | infinite (negative : Bool)
  | finite (negative : Bool) (significand : Nat) (exponent : Int)
  deriving DecidableEq, Repr

namespace Binary64

def twoTo (n : Nat) : Nat := Nat.pow 2 n

def tenTo (n : Nat) : Nat := Nat.pow 10 n

def minExponent : Int := -1074

def maxExponent : Int := 971

def isNonzero : Binary64 → Bool
  | finite _ significand _ => significand ≠ 0
  | _ => true

/-- The quotient rounded to the nearest natural number, a half going to the even one. -/
def roundQuotient (num den : Nat) : Nat :=
  let q := num / den
  let r := num % den
  if den < 2 * r || (den = 2 * r && q % 2 = 1) then q + 1 else q

/-- The fraction `num / den` divided by a power of two, as a numerator and a denominator. -/
def scaleDown (num den : Nat) : Int → Nat × Nat
  | .ofNat n => (num, den * twoTo n)
  | .negSucc n => (num * twoTo (n + 1), den)

/-- The exponent that gives the fraction a significand of 53 bits, or else the least one. -/
def exponentOf (num den : Nat) : Int :=
  let e : Int := (num.log2 : Int) - den.log2
  let (n, d) := scaleDown num den e
  max (if d ≤ n then e - 52 else e - 53) minExponent

/-- The number nearest to the fraction `num / den`. -/
def ofFraction (negative : Bool) (num den : Nat) : Binary64 :=
  let e := exponentOf num den
  let (n, d) := scaleDown num den e
  let m := roundQuotient n d
  let (m, e) := if m = twoTo 53 then (twoTo 52, e + 1) else (m, e)
  if maxExponent < e then infinite negative else finite negative m e

/-- The number nearest to `digits * 10 ^ exponent`.  Far outside the range of the format the answer
is an infinity or a zero, whatever the digits are. -/
def ofDecimal (negative : Bool) (digits : Nat) (exponent : Int) : Binary64 :=
  let size : Int := (Nat.toDigits 10 digits).length + exponent
  if digits = 0 || size < -330 then finite negative 0 minExponent
  else if 320 < size then infinite negative
  else match exponent with
    | .ofNat n => ofFraction negative (digits * tenTo n) 1
    | .negSucc n => ofFraction negative digits (tenTo (n + 1))

end Binary64

end SexpLayout
