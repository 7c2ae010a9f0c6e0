import GraphPath.Settings.Document
import GraphPath.Settings.Escape

/-!
# JSON documents

The strict grammar: no comments, no commas at the end of a list, no zeros before a number. A text
with an unpaired surrogate is a value that no setting takes.
-/

namespace GraphPath.Json

open GraphPath.Parser

def isBlank (c : Char) : Bool := c = ' ' || c = '\t' || c = '\n' || c = '\r'

/-- The parser with blanks passed over before it. -/
def afterBlanks {α : Type} (p : Parser α) : Parser α := do
  let _ ← span isBlank
  p

/-- A character of the text between quotes that stands for itself. -/
def isPlain (c : Char) : Bool := ' ' ≤ c && c ≠ '"' && c ≠ '\\'

/-- The characters that one letter after a backslash stands for. -/
def escapes : List (Char × Char) :=
  [('"', '"'), ('\\', '\\'), ('/', '/'), ('b', '\x08'), ('f', '\x0c'), ('n', '\n'), ('r', '\r'),
   ('t', '\t')]

/-- A character, or a code unit of one, between the quotes. -/
def piece : Parser (Char ⊕ Nat) :=
  either (.inl <$> satisfy isPlain) (do
    char '\\'
    either (.inl <$> letterEscape escapes) (.inr <$> hexNumber 'u' 4))

def isHighSurrogate (unit : Nat) : Bool := 0xd800 ≤ unit && unit < 0xdc00

def isLowSurrogate (unit : Nat) : Bool := 0xdc00 ≤ unit && unit < 0xe000

/-- The characters of the pieces; a surrogate counts only in a pair. -/
def joinPieces : List (Char ⊕ Nat) → Option (List Char)
  | [] => some []
  | .inl c :: rest => (joinPieces rest).map (c :: ·)
  | .inr high :: .inr low :: rest =>
    if isHighSurrogate high then
      if isLowSurrogate low then
        (joinPieces rest).map
          (Char.ofNat (0x10000 + (high - 0xd800) * 0x400 + (low - 0xdc00)) :: ·)
      else none
    else if isLowSurrogate high then none
    else (joinPieces (.inr low :: rest)).map (Char.ofNat high :: ·)
  | .inr unit :: rest =>
    if isHighSurrogate unit || isLowSurrogate unit then none
    else (joinPieces rest).map (Char.ofNat unit :: ·)

/-- A text between quotes; `none` for one that has no characters to it. -/
def quotedText : Parser (Option String) := do
  char '"'
  let pieces ← many piece
  char '"'
  return (joinPieces pieces).map String.ofList

/-- Zero, or digits that do not start with it. -/
def wholeNumber : Parser (List Char) :=
  either (do char '0'; return ['0']) (do
    let first ← satisfy fun c => isDigit c && c ≠ '0'
    let rest ← span isDigit
    return first :: rest)

/-- A number; only one without sign, fraction and exponent is a natural number. -/
def number : Parser Document := do
  let sign ← optional (char '-')
  let whole ← wholeNumber
  let fraction ← optional (do
    char '.'
    span1 isDigit)
  let exponent ← optional (do
    let _ ← satisfy fun c => c = 'e' || c = 'E'
    let _ ← optional (satisfy fun c => c = '+' || c = '-')
    span1 isDigit)
  return if sign.isNone && fraction.isNone && exponent.isNone then .natural (digitsValue whole)
    else .other

def word (letters : String) (d : Document) : Parser Document := do
  chars letters.toList
  return d

def comma : Parser Unit := afterBlanks (char ',')

/-- An entry of an object, given the parser for values; its name may have no characters to it. -/
def entry (value : Parser Document) : Parser (Option String × Document) := do
  let name? ← afterBlanks quotedText
  afterBlanks (char ':')
  let d ← value
  return (name?, d)

/-- An object. One with a name that has no characters to it is a value that no setting takes. -/
def object (entries : List (Option String × Document)) : Document :=
  match entries.mapM fun (name?, d) => name?.map (·, d) with
  | some entries => .map entries
  | none => .other

/-- A value, given the parser for the values in it. -/
def valueLevel (value : Parser Document) : Parser Document :=
  afterBlanks (firstOf
    [do
      char '\x7b'
      let entries ← separated comma (entry value)
      afterBlanks (char '\x7d')
      return object entries,
    do
      char '['
      let items ← separated comma value
      afterBlanks (char ']')
      return .list false items,
    do
      let s? ← quotedText
      return (s?.map Document.text).getD .other,
    number,
    word "true" (.boolean true),
    word "false" (.boolean false),
    word "null" .other])

/-- Values with fewer than `n` levels of nesting. -/
def valueAt : Nat → Parser Document
  | 0 => fail
  | n + 1 => valueLevel (valueAt n)

/-- Reads a whole text. Every level of nesting takes a character, so the bound is no restriction. -/
def document? (s : List Char) : Option Document :=
  let whole : Parser Document := do
    let d ← valueAt (s.length + 1)
    let _ ← span isBlank
    return d
  (whole.run s).toOption

end GraphPath.Json
