import GraphPath.Settings.Toml.Table

/-!
# TOML documents

A document is a list of lines: assignments to names and headers that open tables. Within brackets
line ends and comments may stand between any two words.
-/

namespace GraphPath.Toml

open GraphPath.Parser

def comment : Parser (List Char) := do
  char '#'
  span isPrintable

/-- Blanks, line ends and comments. -/
def gap : Parser Unit := do
  let _ ← many (firstOf [span1 isBlank, newline, comment])

/-- The items of a bracketed list, with commas between them and perhaps one at the end. -/
def items {α : Type} (item : Parser α) : Parser (List α) := do
  let comma : Parser Unit := do
    gap
    char ','
    gap
  gap
  let found ← separated comma item
  if !found.isEmpty then
    let _ ← optional comma
  gap
  return found

/-- An assignment, given the parser for its value and for what may stand around the sign. -/
def assignment (around : Parser Unit) (value : Parser Value) : Parser (Path × String × Value) := do
  let (path, name) ← dottedName
  around
  char '='
  around
  let value ← value
  return (path, name, value)

/-- A value in brackets, given the parser for the values in it. -/
def bracketed (value : Parser Value) : Parser Value :=
  either
    (do
      char '['
      let found ← items value
      char ']'
      return .array found)
    (do
      char '\x7b'
      let found ← items (assignment gap value)
      char '\x7d'
      match inlineTable? found with
      | some table => return table
      | none => fail)

/-- Values with at most `n` levels of brackets. -/
def valueAt : Nat → Parser Value
  | 0 => Value.scalar <$> scalar
  | n + 1 => either (Value.scalar <$> scalar) (bracketed (valueAt n))

/-- How many levels of brackets a value may have. -/
def maxNesting : Nat := 80

/-- A name between brackets. -/
def heading : Parser (Path × String) := do
  blanks
  let found ← dottedName
  blanks
  return found

/-- One line without its end; there may be nothing on it. -/
def line : Parser (Option Line) := do
  blanks
  let found ← optional (firstOf
    [do
      chars ['[', '[']
      let (path, name) ← heading
      chars [']', ']']
      return .element path name,
    do
      char '['
      let (path, name) ← heading
      char ']'
      return .header path name,
    do
      let (path, name, value) ← assignment blanks (valueAt maxNesting)
      return .assignment path name value])
  blanks
  let _ ← optional comment
  return found

/-- The lines of a text. A byte order mark may stand before them. -/
def lines : Parser (List Line) := do
  let _ ← optional (char '\ufeff')
  let first ← line
  let rest ← many (do
    let _ ← newline
    line)
  return (first :: rest).filterMap id

/-- How deep settings are nested. -/
def settingsDepth : Nat := 2

/-- Reads a whole text. -/
def document? (s : List Char) : Option Document := do
  let lines ← (lines.run s).toOption
  let root ← assemble? [] [] lines
  return (Value.table .opened root).document settingsDepth

end GraphPath.Toml
