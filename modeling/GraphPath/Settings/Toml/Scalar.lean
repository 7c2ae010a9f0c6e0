import GraphPath.Settings.Document
import GraphPath.Settings.Escape

/-!
# TOML scalars

Names and values without parts: texts between quotes on one line or on several, truth values,
numbers, and dates and times.
-/

namespace GraphPath.Toml

open GraphPath.Parser

def isBlank (c : Char) : Bool := c = ' ' || c = '\t'

def blanks : Parser Unit := do
  let _ ← span isBlank

/-- The end of a line; a carriage return counts only before a line feed. -/
def newline : Parser (List Char) :=
  either (do char '\n'; return ['\n']) (do chars ['\r', '\n']; return ['\r', '\n'])

def isBareChar (c : Char) : Bool := c.isAlphanum || c = '_' || c = '-'

/-- A character that may stand in a comment or between quotes. -/
def isPrintable (c : Char) : Bool := c = '\t' || ' ' ≤ c && c ≠ '\x7f'

/-! ## Texts -/

/-- The characters that one letter after a backslash stands for. -/
def escapes : List (Char × Char) :=
  [('"', '"'), ('\\', '\\'), ('b', '\x08'), ('e', '\x1b'), ('f', '\x0c'), ('n', '\n'), ('r', '\r'),
   ('t', '\t')]

/-- A character by what follows a backslash. -/
def escape : Parser Char :=
  firstOf [letterEscape escapes, codePoint 'x' 2, codePoint 'u' 4, codePoint 'U' 8]

/-- A character between double quotes. -/
def basicChar : Parser Char :=
  either (satisfy fun c => isPrintable c && c ≠ '"' && c ≠ '\\') (do
    char '\\'
    escape)

/-- A text on one line, between double quotes with escapes or single quotes without. -/
def lineText : Parser String :=
  either
    (do
      char '"'
      let body ← many basicChar
      char '"'
      return String.ofList body)
    (do
      char '\''
      let body ← span fun c => isPrintable c && c ≠ '\''
      char '\''
      return String.ofList body)

/-- A quote that does not start three of them. -/
def loneQuote (quote : Char) : Parser (List Char) := fun s =>
  if [quote, quote, quote].isPrefixOf s then fail s
  else (do
    char quote
    return [quote] : Parser (List Char)) s

/-- A line end after a backslash, with the blanks and line ends around it. It stands for nothing. -/
def lineJoint : Parser (List Char) := do
  blanks
  let _ ← newline
  let _ ← many (either (do let c ← satisfy isBlank; return [c]) newline)
  return []

/-- A text between three quotes, given the parser for what follows a backslash, if anything does.
A line end after the opening quotes does not count, and up to two quotes before the closing ones
belong to the text. -/
def longText (quote : Char) (escape? : Option (Parser (List Char))) : Parser String := do
  chars [quote, quote, quote]
  let _ ← optional newline
  let body ← many (firstOf
    [do
      let c ← satisfy fun c => isPrintable c && c ≠ quote && (c ≠ '\\' || escape?.isNone)
      return [c],
    newline,
    loneQuote quote,
    do
      char '\\'
      escape?.getD fail])
  chars [quote, quote, quote]
  let first ← optional (char quote)
  let second ← optional (char quote)
  let extra := List.replicate (first.toList.length + second.toList.length) quote
  return String.ofList (body.flatten ++ extra)

def quotedText : Parser String :=
  firstOf
    [longText '"' (some (either (do let c ← escape; return [c]) lineJoint)),
    longText '\'' none,
    lineText]

/-! ## Numbers -/

/-- The digits of a numeral without the single underscores between them. -/
def dropUnderscores? : List Char → Option (List Char)
  | [] => none
  | [c] => if c = '_' then none else some [c]
  | c :: '_' :: rest => if c = '_' then none else (dropUnderscores? rest).map (c :: ·)
  | c :: rest => if c = '_' then none else (dropUnderscores? rest).map (c :: ·)

/-- Decimal digits that may start with zeros. -/
def digits? (s : List Char) : Option (List Char) := do
  let digits ← dropUnderscores? s
  guard (digits.all isDigit)
  return digits

/-- Decimal digits that do not start with a zero, or a zero alone. -/
def wholeDigits? (s : List Char) : Option (List Char) := do
  let digits ← digits? s
  guard (digits.head? ≠ some '0' || digits = ['0'])
  return digits

/-- The first natural number that two machine words cannot hold. -/
def integerLimit : Nat := 1 <<< 128

/-- An integer in one of the four bases. A negative one is a value that no setting takes. -/
def integer? (s : List Char) : Option Document :=
  match markedDigits? s with
  | some (base, digits) => do
    let n ← numeralValue? base (← dropUnderscores? digits)
    if n < integerLimit then some (.natural n) else none
  | none => do
    let (negative, digits) := splitSign s
    let n := digitsValue (← wholeDigits? digits)
    if negative && n ≠ 0 then
      if 2 * n ≤ integerLimit then some .other else none
    else if n < integerLimit then some (.natural n)
    else none

/-- The digits and underscores at the front of a text. -/
def numeralChars (s : List Char) : List Char := s.takeWhile fun c => isDigit c || c = '_'

/-- Whether a text is a number with a fraction or an exponent. -/
def isFraction (s : List Char) : Bool :=
  let whole := numeralChars s
  let rest := s.drop whole.length
  let (fraction, rest) :=
    match rest with
    | '.' :: rest => (numeralChars rest, rest.drop (numeralChars rest).length)
    | rest => (['0'], rest)
  let power :=
    match rest with
    | [] => ['0']
    | e :: power => if e = 'e' || e = 'E' then (splitSign power).2 else []
  whole.length < s.length && (wholeDigits? whole).isSome && (digits? fraction).isSome &&
    (digits? power).isSome

/-- A number with a fraction or an exponent, unless it is too large, or one of the two words for
infinite and undefined numbers. No setting takes it. -/
def float? (s : List Char) : Option Document :=
  let unsigned := (splitSign s).2
  if unsigned = "inf".toList || unsigned = "nan".toList then some .other
  else do
    guard (isFraction unsigned)
    let decimal ← Decimal.read? (unsigned.filter (· ≠ '_'))
    if decimal.magnitude < Binary64.infiniteMagnitude then some .other else none

/-! ## Dates and times -/

/-- A number of so many digits that is in a range, and the text after it. -/
def fixedNumber? (count low high : Nat) (s : List Char) : Option (Nat × List Char) := do
  let digits := s.take count
  let n := digitsValue digits
  guard (digits.length = count && digits.all isDigit && low ≤ n && n ≤ high)
  return (n, s.drop count)

/-- The text after one of some characters. -/
def after? (marks : List Char) : List Char → Option (List Char)
  | c :: rest => if marks.contains c then some rest else none
  | [] => none

def isLeapYear (year : Nat) : Bool := year % 4 = 0 && (year % 100 ≠ 0 || year % 400 = 0)

def daysInMonth (year month : Nat) : Nat :=
  if month = 2 then (if isLeapYear year then 29 else 28)
  else if [4, 6, 9, 11].contains month then 30
  else 31

/-- A date at the front of a text, and the text after it. -/
def date? (s : List Char) : Option (List Char × List Char) := do
  let (year, rest) ← fixedNumber? 4 0 9999 s
  let (month, rest) ← fixedNumber? 2 1 12 (← after? ['-'] rest)
  let (_, rest) ← fixedNumber? 2 1 (daysInMonth year month) (← after? ['-'] rest)
  return (s.take 10, rest)

/-- The fraction of a second, up to nine digits and without zeros at the end. -/
def fraction (digits : List Char) : List Char :=
  match ((digits.take 9).reverse.dropWhile (· = '0')).reverse with
  | [] => []
  | digits => '.' :: digits

/-- A time at the front of a text, with seconds, and the text after it. -/
def time? (s : List Char) : Option (List Char × List Char) := do
  let (_, rest) ← fixedNumber? 2 0 23 s
  let (_, rest) ← fixedNumber? 2 0 59 (← after? [':'] rest)
  match rest with
  | ':' :: rest =>
    let (_, rest) ← fixedNumber? 2 0 60 rest
    match rest with
    | '.' :: rest =>
      let digits := rest.takeWhile isDigit
      guard !digits.isEmpty
      return (s.take 8 ++ fraction digits, rest.drop digits.length)
    | rest => return (s.take 8, rest)
  | rest => return (s.take 5 ++ ":00".toList, rest)

/-- How far a time is from the prime meridian's; nothing at all is allowed. -/
def offset? : List Char → Option (List Char)
  | [] => some []
  | mark :: rest =>
    if mark = 'Z' || mark = 'z' then (if rest.isEmpty then some ['Z'] else none)
    else do
      guard (mark = '+' || mark = '-')
      let (hour, rest') ← fixedNumber? 2 0 23 rest
      let (minute, rest') ← fixedNumber? 2 0 59 (← after? [':'] rest')
      guard rest'.isEmpty
      return (if hour = 0 && minute = 0 then '+' else mark) :: rest

/-- A date, a time, or a date with a time, in its usual form. -/
def moment? (s : List Char) : Option (List Char) :=
  match date? s with
  | some (date, []) => some date
  | some (date, rest) => do
    let (time, rest) ← time? (← after? ['T', 't', ' '] rest)
    let offset ← offset? rest
    return date ++ 'T' :: time ++ offset
  | none => do
    let (time, rest) ← time? s
    if rest.isEmpty then some time else none

/-- The name of the only field of a date or time as a record. -/
def momentField : String := "$__toml_private_datetime"

/-! ## Words -/

/-- A value without quotes or brackets. -/
def word? (s : List Char) : Option Document :=
  if s = "true".toList then some (.boolean true)
  else if s = "false".toList then some (.boolean false)
  else
    integer? s <|> float? s <|>
      (moment? s).map fun moment => .map [(momentField, .text (String.ofList moment))]

/-- A value without quotes or brackets; the blank between a date and a time belongs to it. -/
def word : Parser Document := do
  let isWordChar (c : Char) : Bool := isBareChar c || c = '+' || c = '.' || c = ':'
  let first ← span1 isWordChar
  let second? ← optional (do
    char ' '
    let second ← span1 isWordChar
    if (date? first).isSome && (time? second).isSome then return ' ' :: second else fail)
  match word? (first ++ second?.getD []) with
  | some d => return d
  | none => fail

def scalar : Parser Document := either (Document.text <$> quotedText) word

/-! ## Names -/

/-- The names that lead from one table to another one or to a value. -/
abbrev Path : Type := List String

/-- How many names a path may have. -/
def maxPathLength : Nat := 80

def simpleName : Parser String := either (String.ofList <$> span1 isBareChar) lineText

/-- A name, or several with points between them: those before the last one, and it. -/
def dottedName : Parser (Path × String) := do
  let first ← simpleName
  let rest ← many (do
    blanks
    char '.'
    blanks
    simpleName)
  let path := first :: rest
  if path.length ≤ maxPathLength then return (path.dropLast, path.getLast?.getD first) else fail

end GraphPath.Toml
