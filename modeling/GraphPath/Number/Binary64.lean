/-!
# Double-precision values

A value of the binary interchange format with 64 bits: not a number, or a sign with the other 63
bits read as a natural number. These bits grow with the magnitude, so values are compared as
integers, and both zeros are the integer zero.
-/

namespace GraphPath

inductive Binary64 where
  | nan
  | number (negative : Bool) (magnitude : Nat)
deriving DecidableEq, Repr

namespace Binary64

/-- The 63 bits of infinity: every exponent bit is set and no fraction bit. -/
def infiniteMagnitude : Nat := 0x7ff0000000000000

/-- The place of a number among all numbers. -/
def rank (negative : Bool) (magnitude : Nat) : Int :=
  if negative then -magnitude else magnitude

/-- The order of two values; a value that is not a number has none. -/
def compare? : Binary64 → Binary64 → Option Ordering
  | number n m, number n' m' => some (compare (rank n m) (rank n' m'))
  | _, _ => none

def isZero : Binary64 → Bool
  | nan => false
  | number _ m => m = 0

/-- The bits of the value as one word; `none` for a value that is not a number. -/
def bits? : Binary64 → Option Nat
  | nan => none
  | number n m => some (if n then 0x8000000000000000 + m else m)

end Binary64

/-- The quotient rounded to the nearest natural number, a half to the even one. -/
def roundHalfEven (num den : Nat) : Nat :=
  let quotient := num / den
  let twice := 2 * (num % den)
  if twice < den then quotient
  else if den < twice then quotient + 1
  else quotient + quotient % 2

/-- Whether `num / den` is at least the power `2 ^ e`. -/
def reachesPower (num den : Nat) (e : Int) : Bool :=
  den <<< e.toNat ≤ num <<< (-e).toNat

/-- The binary exponent of a positive ratio. -/
def binaryExponent (num den : Nat) : Int :=
  let estimate : Int := (num.log2 : Int) - den.log2
  if reachesPower num den estimate then estimate else estimate - 1

/-- The 63 bits of the double nearest to a positive ratio. The last place is worth `2 ^ unit`; the
significand carries into the exponent bits, and what is too large is infinite. -/
def nearestMagnitude (num den : Nat) : Nat :=
  let unit := max (binaryExponent num den - 52) (-1074)
  let significand := roundHalfEven (num <<< (-unit).toNat) (den <<< unit.toNat)
  min Binary64.infiniteMagnitude (((unit + 1074).toNat <<< 52) + significand)

end GraphPath
