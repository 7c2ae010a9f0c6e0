import GraphPath.Store.Eval
import GraphPath.Store.Statements

/-!
# Stores

A store holds statements in the order they were added, each once, and answers queries over them.
-/

namespace GraphPath

structure Store where
  quads : List Quad := []
  /-- The number of rows that no step of a query may exceed. -/
  maxRows : Nat := 100000

namespace Store

/-- Adds a statement, and tells whether it is new. -/
def insert (s : Store) (q : Quad) : Store × Bool :=
  if q ∈ s.quads then (s, false) else ({ s with quads := s.quads ++ [q] }, true)

/-- Adds statements one after the other, and counts the new ones. -/
def extend (s : Store) : List Quad → Store × Nat
  | [] => (s, 0)
  | q :: rest =>
    let (s, isNew) := s.insert q
    let (s, added) := extend s rest
    (s, if isNew then added + 1 else added)

/-- Adds the statements of a text, and counts the new ones. -/
def load (s : Store) (v : Vocabulary) (text : String) : Except StatementError (Store × Nat) := do
  return s.extend (← Statements.parse v text)

/-- Answers a query. -/
def select (s : Store) : Endpoint := fun q => q.eval s.quads s.maxRows

end Store

end GraphPath
