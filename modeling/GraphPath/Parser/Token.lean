import GraphPath.Parser.Basic
import GraphPath.Node
import GraphPath.Text.Letter
import GraphPath.Vocabulary

/-!
# Words of the path language

Names, IRIs, quoted and numeric literals, integers and keywords. Compact names are expanded against
a vocabulary as they are read.
-/

namespace GraphPath.Parser

def isIdentifierChar (c : Char) : Bool := Text.isAlphanumeric c || c = '_'

def isNameChar (c : Char) : Bool := Text.isAlphanumeric c || c = '_' || c = '-'

def isTagChar (c : Char) : Bool := c.isAlphanum || c = '-'

/-- The characters between the brackets of an IRI, as far as one character tells. -/
def isBracketChar (c : Char) : Bool := !"<>\" \x7b\x7d|^\x60\\".toList.contains c

def identifier : Parser String :=
  lexeme (String.ofList <$> span1 isIdentifierChar)

/-- A checked IRI from text, with the fault as the reason. -/
def checkIri (text : String) : Except Reason Iri :=
  (Iri.parse text).mapError Reason.invalidIri

/-- An IRI between angle brackets. -/
def bracketedIri : Parser Iri :=
  lexeme (checked checkIri do
    char '<'
    let body ← span1 isBracketChar
    char '>'
    return String.ofList body)

/-- The checked IRI of a compact name. -/
def expandName (v : Vocabulary) (short name : String) : Except Reason Iri :=
  match v.expand short name with
  | none => .error (.unknownShortName short)
  | some i => checkIri i.text

/-- A compact name such as `oa:hasBody`. -/
def compactName (v : Vocabulary) : Parser Iri :=
  checked (fun (short, name) => expandName v short name) (lexeme do
    let short ← span isNameChar
    char ':'
    let name ← span1 isNameChar
    return (String.ofList short, String.ofList name))

def iri (v : Vocabulary) : Parser Iri := either bracketedIri (compactName v)

/-- A text between two quotes of one kind, which it does not contain. -/
def quotedBy (quote : Char) : Parser String :=
  lexeme do
    char quote
    let body ← span (· ≠ quote)
    char quote
    return String.ofList body

def singleQuoted : Parser String := quotedBy '\''

def doubleQuoted : Parser String := quotedBy '"'

def quoted : Parser String := lexeme (either singleQuoted doubleQuoted)

def languageTag : Parser String :=
  lexeme (String.ofList <$> span1 isTagChar)

/-- The first natural number that a machine word cannot hold. -/
def wordLimit : Nat := 0x10000000000000000

/-- A natural number that fits a machine word. -/
def integer : Parser Nat :=
  lexeme (checked (fun digits =>
    if digitsValue digits < wordLimit then .ok (digitsValue digits) else .error .integerTooLarge)
    (span1 isDigit))

/-- A quoted text with a language tag or a datatype after it. -/
def quotedLiteral (v : Vocabulary) : Parser Literal := do
  let value ← quoted
  let literal? ← optional (either
    (do
      char '@'
      let tag ← languageTag
      return Literal.tagged value tag)
    (do
      chars ['^', '^']
      let datatype ← iri v
      return Literal.typed value datatype))
  return literal?.getD (Literal.plain value)

/-- A number such as `42`, `-3` or `2.5`; with a point it is a decimal. -/
def numericLiteral : Parser Literal :=
  lexeme do
    let sign ← optional (char '-')
    let whole ← span1 isDigit
    let fraction ← optional (do
      char '.'
      span1 isDigit)
    let integral := (if sign.isSome then ['-'] else []) ++ whole
    return match fraction with
      | none => Literal.typed (String.ofList integral) Iri.xsdInteger
      | some digits => Literal.typed (String.ofList (integral ++ '.' :: digits)) Iri.xsdDecimal

def literal (v : Vocabulary) : Parser Literal := either (quotedLiteral v) numericLiteral

/-- A literal or an IRI. -/
def node (v : Vocabulary) : Parser Node :=
  lexeme (either (Node.literal <$> literal v) (Node.iri <$> iri v))

/-- A word of letters that is the keyword up to the case of ASCII letters. -/
def keyword (word : String) : Parser Unit :=
  padded (checked (fun letters =>
    if letters.map Char.toLower = word.toList.map Char.toLower then .ok ()
    else .error (.missingKeyword word)) (span1 Text.isAlphabetic))

end GraphPath.Parser
