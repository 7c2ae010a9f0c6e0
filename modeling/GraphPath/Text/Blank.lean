import GraphPath.Text.Span

/-!
# Blanks

The characters with the Unicode property `White_Space`. They may stand around the parts of a path
expression and around a line of statements.
-/

namespace GraphPath.Text

def blankSpans : List (Nat × Nat) :=
  [(0x9, 0xd), (0x20, 0x20), (0x85, 0x85), (0xa0, 0xa0), (0x1680, 0x1680), (0x2000, 0x200a),
   (0x2028, 0x2029), (0x202f, 0x202f), (0x205f, 0x205f), (0x3000, 0x3000)]

def isBlank (c : Char) : Bool := inSpans blankSpans c.toNat

def skipBlanks (s : List Char) : List Char := s.dropWhile isBlank

/-- The text without the blanks at its end. -/
def dropTrailingBlanks (s : List Char) : List Char := (skipBlanks s.reverse).reverse

/-- The text without the blanks at its ends. -/
def trim (s : List Char) : List Char := dropTrailingBlanks (skipBlanks s)

theorem skipBlanks_of_not_blank {c : Char} (s : List Char) (h : isBlank c = false) :
    skipBlanks (c :: s) = c :: s := by
  simp [skipBlanks, h]

end GraphPath.Text
