import GraphPath.Parser.Token
import GraphPath.Path.Selector

/-!
# Reading path expressions

The grammar of selectors and tests. From loosest to tightest, a selector is a union `|`, an
intersection `&`, a sequence `/` of steps, and a step is an atom with bracketed tests after it. A
test is made with `or` or `|`, `and` or `&`, and `not` or `!`.

Selectors and tests contain each other, always between brackets, so a text is read by a parser for
as many levels of nesting as it has characters.
-/

namespace GraphPath

namespace Parser

/-- A first operand and further ones, each after the operator, joined to the left. -/
def leftAssoc {α : Type} (join : α → α → α) (operator : Parser Unit) (operand : Parser α) :
    Parser α := do
  let first ← operand
  let rest ← many (do padded operator; operand)
  return rest.foldl join first

def functionCall (selector : Parser Selector) : Parser Selector :=
  lexeme do
    chars ['f', 'n', ':']
    let name ← identifier
    padded (char '(')
    let args ← separated (char ',') (padded selector)
    char ')'
    return .function name args

def reverseProperty (v : Vocabulary) : Parser Selector :=
  lexeme do
    char '^'
    let p ← iri v
    return .reverse p

/-- The bounds of a repetition: `*`, `+`, `{m,n}` with either bound left out, or `{n}`. -/
def quantifier : Parser (Nat × Option Nat) :=
  firstOf
    [do
      char '*'
      return (0, none),
    do
      char '+'
      return (1, none),
    do
      char '{'
      let min ← optional (padded integer)
      char ','
      let max ← optional (padded integer)
      char '}'
      return (min.getD 0, max),
    do
      char '{'
      let n ← padded integer
      char '}'
      return (n, some n)]

/-- A selector in parentheses, repeated if bounds follow it. -/
def closeGroup : Selector × Option (Nat × Option Nat) → Except Reason Selector
  | (inner, none) => .ok (.grouping inner)
  | (inner, some (min, none)) => .ok (.recursive inner min none)
  | (inner, some (min, some max)) =>
    if max < min then .error (.invertedBounds min max) else .ok (.recursive inner min (some max))

def grouped (selector : Parser Selector) : Parser Selector :=
  checked closeGroup do
    char '('
    let inner ← padded selector
    char ')'
    let bounds ← optional quantifier
    return (inner, bounds)

def atom (v : Vocabulary) (selector : Parser Selector) : Parser Selector :=
  padded (firstOf
    [functionCall selector,
     reverseProperty v,
     grouped selector,
     do
      char '.'
      return .self,
     do
      char '*'
      return .wildcard,
     (fun l => .constant (.literal l)) <$> literal v,
     .property <$> iri v])

/-- An atom and the tests in brackets after it. -/
def step (v : Vocabulary) (selector : Parser Selector) (test : Parser Test) : Parser Selector := do
  let first ← atom v selector
  let tests ← many (padded do
    char '['
    let t ← padded test
    char ']'
    return t)
  return tests.foldl .testing first

/-- A selector, given the parsers for what stands between brackets in it. -/
def selectorLevel (v : Vocabulary) (selector : Parser Selector) (test : Parser Test) :
    Parser Selector :=
  leftAssoc .union (char '|')
    (leftAssoc .intersection (char '&')
      (leftAssoc .path (char '/')
        (step v selector test)))

def typeTest (v : Vocabulary) : Parser Test :=
  lexeme do
    padded (chars ['i', 's', '-', 'a'])
    let type ← node v
    return .isA (.constant type)

def languageTest : Parser Test :=
  lexeme do
    char '@'
    let tag ← languageTag
    return .language tag

def datatypeTest (v : Vocabulary) : Parser Test :=
  lexeme do
    chars ['^', '^']
    let type ← iri v
    return .datatype type

def comparisonOperator : Parser Comparison :=
  padded (firstOf
    [do
      chars ['!', '=']
      return .ne,
    do
      chars ['<', '=']
      return .le,
    do
      chars ['>', '=']
      return .ge,
    do
      chars ['=', '=']
      return .eq,
    do
      char '='
      return .eq,
    do
      char '<'
      return .lt,
    do
      char '>'
      return .gt])

/-- The right side of a comparison; a literal stands for itself. -/
def operand (v : Vocabulary) (selector : Parser Selector) : Parser Selector :=
  either (padded ((fun l => .constant (.literal l)) <$> literal v)) selector

/-- A path that is compared, or that only has to lead somewhere. -/
def pathTest (v : Vocabulary) (selector : Parser Selector) : Parser Test := do
  let left ← selector
  let test? ← optional (either
    (do
      keyword "is"
      let right ← padded (node v)
      return Test.pathEquality left (.constant right))
    (do
      let op ← comparisonOperator
      let right ← operand v selector
      return Test.comparison op left right))
  return test?.getD (.pathExists left)

def primaryTest (v : Vocabulary) (selector : Parser Selector) (test : Parser Test) : Parser Test :=
  padded (firstOf
    [typeTest v,
     languageTest,
     datatypeTest v,
     pathTest v selector,
     do
      char '('
      let t ← padded test
      char ')'
      return t])

/-- A test after any number of negations. -/
def unaryTest (v : Vocabulary) (selector : Parser Selector) (test : Parser Test) : Parser Test := do
  let negations ← many (padded (either (char '!') (keyword "not")))
  let inner ← primaryTest v selector test
  return negations.foldl (fun t _ => .not t) inner

/-- A test, given the parsers for the selectors in it and for the tests between parentheses. -/
def testLevel (v : Vocabulary) (selector : Parser Selector) (test : Parser Test) : Parser Test :=
  leftAssoc .or (either (char '|') (keyword "or"))
    (leftAssoc .and (either (char '&') (keyword "and"))
      (unaryTest v selector test))

mutual

/-- Selectors with fewer than `n` levels of nesting. -/
def selectorAt (v : Vocabulary) : Nat → Parser Selector
  | 0 => fail
  | n + 1 => selectorLevel v (selectorAt v n) (testAt v n)

/-- Tests with fewer than `n` levels of nesting. -/
def testAt (v : Vocabulary) : Nat → Parser Test
  | 0 => fail
  | n + 1 => testLevel v (selectorLevel v (selectorAt v n) (testAt v n)) (testAt v n)

end

/-- A whole path expression. Every level of nesting takes a character, so the bound is no
restriction. -/
def pathExpression (v : Vocabulary) : Parser Selector := fun s =>
  padded (selectorAt v (s.length + 1)) s

end Parser

/-- A text that is no path expression, and the furthest failure in it. -/
structure ParseError where
  input : String
  failure : Failure
deriving DecidableEq, Repr

/-- The report on an error that has a reason. -/
def ParseError.report? (e : ParseError) : Option String :=
  (e.failure.report? e.input.toList).map fun report =>
    s!"Invalid path expression `{e.input}`: {report}"

/-- Reads a path expression, with compact names expanded against a vocabulary. -/
def Selector.parse (v : Vocabulary) (input : String) : Except ParseError Selector :=
  ((Parser.pathExpression v).run input.toList).mapError fun failure => ⟨input, failure⟩

end GraphPath
