import GraphPath.Number.Binary64

/-!
# Decimal numbers in text

A number is written with an optional sign, digits with an optional point and an optional exponent,
or as a word for infinity or for a value that is not a number. It denotes the nearest double.
-/

namespace GraphPath

def isDigit (c : Char) : Bool := '0' ≤ c && c ≤ '9'

/-- The natural number that a run of digits denotes. -/
def digitsValue (s : List Char) : Nat :=
  s.foldl (fun n c => 10 * n + (c.toNat - '0'.toNat)) 0

/-- An optional sign and what follows it; the flag tells a minus sign. -/
def splitSign : List Char → Bool × List Char
  | '-' :: rest => (true, rest)
  | '+' :: rest => (false, rest)
  | s => (false, s)

/-- An unsigned decimal: the digits without the point, and the power of ten of the last one. -/
structure Decimal where
  digits : List Char
  exponent : Int
deriving DecidableEq, Repr

namespace Decimal

/-- The exponent part, which ends the text; none is the same as zero. -/
def readExponent? : List Char → Option Int
  | [] => some 0
  | c :: rest =>
    if c = 'e' || c = 'E' then
      let (negative, digits) := splitSign rest
      if digits.isEmpty || !digits.all isDigit then none
      else some (if negative then -digitsValue digits else digitsValue digits)
    else none

/-- Digits with an optional point, at least one digit in all, and an optional exponent. -/
def read? (s : List Char) : Option Decimal :=
  let whole := s.takeWhile isDigit
  let (fraction, rest) :=
    match s.dropWhile isDigit with
    | '.' :: rest => (rest.takeWhile isDigit, rest.dropWhile isDigit)
    | rest => ([], rest)
  if (whole ++ fraction).isEmpty then none
  else (readExponent? rest).map fun e => ⟨whole ++ fraction, e - fraction.length⟩

/-- The bits of the nearest double. A number with more than 310 digits before the point is infinite
and one with more than 330 zeros after it is zero, so no large power is needed. -/
def magnitude (d : Decimal) : Nat :=
  let significant := d.digits.dropWhile (· = '0')
  let point : Int := significant.length + d.exponent
  if significant.isEmpty || point < -330 then 0
  else if 310 < point then Binary64.infiniteMagnitude
  else
    nearestMagnitude (digitsValue significant * Nat.pow 10 d.exponent.toNat)
      (Nat.pow 10 (-d.exponent).toNat)

end Decimal

/-- The double that a text denotes. -/
def Binary64.read? (s : List Char) : Option Binary64 :=
  let (negative, body) := splitSign s
  match Decimal.read? body with
  | some d => some (.number negative d.magnitude)
  | none =>
    let word := body.map Char.toLower
    if word = "inf".toList || word = "infinity".toList then
      some (.number negative Binary64.infiniteMagnitude)
    else if word = "nan".toList then some .nan
    else none

end GraphPath
