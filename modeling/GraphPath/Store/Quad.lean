import GraphPath.Node

/-!
# Statements

A statement says that a resource is related to a node; it may belong to a named graph.
-/

namespace GraphPath

/-- Statements are ordered by subject, predicate, object and graph; those in no graph come first. -/
structure Quad where
  subject : Iri
  predicate : Iri
  object : Node
  graph : Option Iri := none
deriving DecidableEq, Ord, Repr

namespace Quad

/-- The statement as a line of text. -/
def render (q : Quad) : String :=
  q.subject.render ++ " " ++ q.predicate.render ++ " " ++ q.object.render ++
    (match q.graph with
      | some g => " " ++ g.render
      | none => "") ++ " ."

/-- Whether a query restricted to a graph sees the statement; without one it sees them all. -/
def isVisible (graph : Option Iri) (q : Quad) : Bool :=
  match graph with
  | none => true
  | some g => q.graph = some g

/-- The statements in increasing order. -/
def sort (quads : List Quad) : List Quad := quads.mergeSort fun a b => (compare a b).isLE

end Quad

end GraphPath
