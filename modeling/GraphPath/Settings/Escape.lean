import GraphPath.Number.Numeral
import GraphPath.Parser.Basic

/-!
# Escapes

Characters that are written after a backslash: by a letter that stands for them, or by the
hexadecimal digits of their number.
-/

namespace GraphPath.Parser

/-- A letter that stands for a character of a table. -/
def letterEscape (table : List (Char × Char)) : Parser Char := do
  let letter ← satisfy fun c => (table.lookup c).isSome
  return (table.lookup letter).getD letter

def hexDigits : Nat → Parser (List Char)
  | 0 => succeed []
  | n + 1 => do
    let first ← satisfy fun c => (digitValue? 16 c).isSome
    let rest ← hexDigits n
    return first :: rest

/-- The number that follows a mark with so many digits. -/
def hexNumber (mark : Char) (count : Nat) : Parser Nat := do
  char mark
  let digits ← hexDigits count
  return (numeralValue? 16 digits).getD 0

/-- A character by its number, which is not to be a surrogate or too large. -/
def codePoint (mark : Char) (count : Nat) : Parser Char := do
  let n ← hexNumber mark count
  if n.isValidChar then return Char.ofNat n else fail

end GraphPath.Parser
