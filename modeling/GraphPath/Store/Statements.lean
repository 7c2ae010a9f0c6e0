import GraphPath.Parser.Token
import GraphPath.Store.Quad

/-!
# Lines of statements

A text format for statements, one on a line, with a point at its end. Lines that are empty or start
with `#` are passed over, and a line with `@prefix` declares a short name for the lines after it.
-/

namespace GraphPath

namespace Parser

/-- The declaration of a short name for a namespace. -/
def declaration : Parser (String × Iri) := do
  chars "@prefix".toList
  let short ← padded (span isNameChar)
  char ':'
  let ns ← padded bracketedIri
  char '.'
  return (String.ofList short, ns)

def statement (v : Vocabulary) : Parser Quad := do
  let subject ← padded (iri v)
  let predicate ← padded (iri v)
  let object ← padded (node v)
  let graph ← optional (padded (iri v))
  char '.'
  return ⟨subject, predicate, object, graph⟩

/-- A line that says something. -/
def statementLine (v : Vocabulary) : Parser (String × Iri ⊕ Quad) :=
  padded (either (.inl <$> declaration) (.inr <$> statement v))

end Parser

/-- A line that cannot be read: its number, its text without blanks around it, and the failure. -/
structure StatementError where
  line : Nat
  content : List Char
  failure : Failure
deriving DecidableEq, Repr

namespace StatementError

/-- The column of the failure within the line. -/
def column (e : StatementError) : Nat := (e.failure.position e.content).column

/-- The report on an error that has a reason. -/
def report? (e : StatementError) : Option String :=
  (e.failure.report? e.content).map fun report => s!"Fixture line {e.line}: {report}"

end StatementError

namespace Statements

/-- Whether a line, without blanks around it, says nothing. -/
def isIdle (content : List Char) : Bool := content.isEmpty || content.head? = some '#'

/-- Reads the lines from number `n` on. -/
def parseFrom (n : Nat) (v : Vocabulary) : List (List Char) → Except StatementError (List Quad)
  | [] => .ok []
  | line :: rest =>
    let content := Text.trim line
    if isIdle content then parseFrom (n + 1) v rest
    else
      match (Parser.statementLine v).run content with
      | .error failure => .error ⟨n, content, failure⟩
      | .ok (.inl (short, ns)) => parseFrom (n + 1) (v.insert short ns.text) rest
      | .ok (.inr q) => (parseFrom (n + 1) v rest).map (q :: ·)

/-- The statements of a text, with compact names expanded against a vocabulary. -/
def parse (v : Vocabulary) (text : String) : Except StatementError (List Quad) :=
  parseFrom 1 v (Text.lines text.toList)

end Statements

end GraphPath
