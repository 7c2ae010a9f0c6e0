import GraphPath.Text.Position

/-!
# Places in a YAML text

The characters of YAML and a place in a text, with its line and column. Indentation is told by
columns, and a key is told by how far back it starts.
-/

namespace GraphPath.Yaml

/-- Whether a character may stand in a text at all. -/
def isPermitted (c : Char) : Bool :=
  c = '\t' || c = '\n' || c = '\r' || ' ' ≤ c && c ≤ '~' || c = '\u0085' ||
    0xa0 ≤ c.toNat && c.toNat ≤ 0xfffd || 0x10000 ≤ c.toNat

def isBlank (c : Char) : Bool := c = ' ' || c = '\t'

def isBreak (c : Char) : Bool :=
  c = '\n' || c = '\r' || c = '\u0085' || c = '\u2028' || c = '\u2029'

def isSpace (c : Char) : Bool := isBlank c || isBreak c

/-- Whether a word ends before the given character, or before the end of the text. -/
def endsWord (next : Option Char) : Bool := next.all isSpace

/-- A character of a name. -/
def isNameChar (c : Char) : Bool := c.isAlphanum || c = '_' || c = '-'

/-- The line break at the front of a text, as the character it stands for, and its width. -/
def lineBreak? : List Char → Option (Char × Nat)
  | '\r' :: '\n' :: _ => some ('\n', 2)
  | c :: _ =>
    if c = '\u2028' || c = '\u2029' then some (c, 1)
    else if isBreak c then some ('\n', 1)
    else none
  | [] => none

/-- The rest of a text, with the number of bytes before it and its line and column. -/
structure Cursor where
  rest : List Char
  index : Nat := 0
  line : Nat := 0
  column : Nat := 0

namespace Cursor

def head? (c : Cursor) : Option Char := c.rest.head?

def atEnd (c : Cursor) : Bool := c.rest.isEmpty

/-- Passes over characters of one line. -/
def advance (c : Cursor) (count : Nat) : Cursor where
  rest := c.rest.drop count
  index := c.index + Text.byteCount (c.rest.take count)
  line := c.line
  column := c.column + count

/-- Passes over the characters of a class. -/
def skip (c : Cursor) (accepts : Char → Bool) : Cursor :=
  c.advance (c.rest.takeWhile accepts).length

/-- Passes over a line break. -/
def takeBreak? (c : Cursor) : Option (Char × Cursor) :=
  (lineBreak? c.rest).map fun (char, width) =>
    (char, ⟨c.rest.drop width, c.index + Text.byteCount (c.rest.take width), c.line + 1, 0⟩)

/-- Passes over blanks and a comment up to the end of the line, and over the line break. -/
def endLine? (c : Cursor) : Option Cursor :=
  let c := c.skip isBlank
  let c := if c.head? = some '#' then c.skip fun char => !isBreak char else c
  match c.takeBreak? with
  | some (_, next) => some next
  | none => if c.atEnd then some c else none

/-- Whether a line starts here with the marks between documents. -/
def atMarker (c : Cursor) (mark : Char) : Bool :=
  c.column = 0 && c.rest.take 3 = [mark, mark, mark] && endsWord (c.rest.drop 3).head?

/-- Whether a document starts or ends here. -/
def atBoundary (c : Cursor) : Bool := c.atMarker '-' || c.atMarker '.'

end Cursor

end GraphPath.Yaml
