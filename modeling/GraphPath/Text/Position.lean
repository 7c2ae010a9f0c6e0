/-!
# Lines and positions

A place in a text is a count of bytes in its UTF-8 form. For a reader it is a line and a column,
found from the text before the place.
-/

namespace GraphPath.Text

/-- The lines of a text. A newline ends its line, and no line follows a final newline. -/
def lines : List Char → List (List Char)
  | [] => []
  | c :: rest =>
    if c = '\n' then [] :: lines rest
    else
      match lines rest with
      | [] => [[c]]
      | line :: more => (c :: line) :: more

/-- The size of a text in UTF-8. -/
def byteCount : List Char → Nat
  | [] => 0
  | c :: rest => c.utf8Size + byteCount rest

/-- The characters that lie within the first `n` bytes. -/
def takeBytes : Nat → List Char → List Char
  | _, [] => []
  | n, c :: rest => if c.utf8Size ≤ n then c :: takeBytes (n - c.utf8Size) rest else []

/-- A line and a column, both counted from one; columns count bytes. -/
structure Position where
  line : Nat
  column : Nat
deriving DecidableEq, Repr

/-- The part of a text after its last newline. -/
def lastLine (s : List Char) : List Char := (s.reverse.takeWhile (· ≠ '\n')).reverse

/-- The position reached after the text `before`: as many lines as it has, at least one. -/
def Position.after (before : List Char) : Position where
  line := max 1 (lines before).length
  column := byteCount (lastLine before) + 1

/-- The text that names a position and what is wrong there. -/
def Position.report (p : Position) (reason : String) : String :=
  s!"Line {p.line}, column {p.column}: {reason} (found end of input)"

end GraphPath.Text
