/-!
Floating-point values as 64-bit words. Their sign, exponent and fraction are read off the word,
and comparison, truncation and decimal text are computed from these in exact arithmetic.
-/
namespace DeclLine

structure Binary64 where
  bits : UInt64
  deriving DecidableEq, Repr

namespace Binary64

def pow2 (n : Nat) : Nat :=
  Nat.pow 2 n

def zero : Binary64 := ⟨0⟩

def isNegative (x : Binary64) : Bool :=
  pow2 63 ≤ x.bits.toNat

def exponent (x : Binary64) : Nat :=
  x.bits.toNat / pow2 52 % pow2 11

def fraction (x : Binary64) : Nat :=
  x.bits.toNat % pow2 52

/-- Infinities and NaNs have the largest exponent. -/
def isFinite (x : Binary64) : Bool :=
  x.exponent != 2047

def isNaN (x : Binary64) : Bool :=
  !x.isFinite && x.fraction != 0

def isZero (x : Binary64) : Bool :=
  x.exponent == 0 && x.fraction == 0

/-- Numeric equality: the two zeros are equal and a NaN differs from everything. -/
protected def beq (x y : Binary64) : Bool :=
  !x.isNaN && !y.isNaN && (x.bits == y.bits || (x.isZero && y.isZero))

instance : BEq Binary64 := ⟨Binary64.beq⟩

/-- The fraction with its leading bit, which only the smallest exponent lacks. -/
def significand (x : Binary64) : Nat :=
  if x.exponent = 0 then x.fraction else pow2 52 + x.fraction

/-- Places by which the significand is moved up. The two smallest exponents move it by none. -/
def shift (x : Binary64) : Nat :=
  x.exponent - 1

/-- Magnitude of a finite value, counted in units of `2 ^ -1074`. -/
def magnitude (x : Binary64) : Nat :=
  x.significand * pow2 x.shift

def unitsPerOne : Nat := pow2 1074

/-- The whole part, drawn to the nearest end of the 64-bit range; a NaN gives zero. -/
def truncate (x : Binary64) : Int64 :=
  if x.isNaN then 0
  else
    let whole := if x.isFinite then x.magnitude / unitsPerOne else pow2 63
    if x.isNegative then Int64.ofInt (-(min whole (pow2 63) : Nat))
    else Int64.ofInt (min whole (pow2 63 - 1) : Nat)

/-- The quotient rounded to the nearest natural number, a half going to the even one. -/
def roundDiv (num den : Nat) : Nat :=
  let q := num / den
  let r := num % den
  if den < 2 * r || (2 * r == den && q % 2 == 1) then q + 1 else q

/-- A count of hundredths as a decimal with two places. -/
def hundredths (n : Nat) : String :=
  let cents := n % 100
  toString (n / 100) ++ "." ++ (if cents < 10 then "0" else "") ++ toString cents

/-- Two decimal places, rounded from the exact value. A negative zero keeps its sign. -/
def render (x : Binary64) : String :=
  if x.isNaN then "NaN"
  else
    let sign := if x.isNegative then "-" else ""
    let size := if x.isFinite then hundredths (roundDiv (x.magnitude * 100) unitsPerOne) else "inf"
    sign ++ size

end Binary64

end DeclLine
