import GraphPath.Pattern.Basic

/-!
# Queries

A query asks for the values of one variable over the matches of a group.
-/

namespace GraphPath

inductive Direction where
  | ascending
  | descending
deriving DecidableEq, Repr

def Direction.name : Direction → String
  | .ascending => "ASC"
  | .descending => "DESC"

/-- A variable by which answers are ordered. -/
structure OrderKey where
  target : Variable
  direction : Direction
deriving DecidableEq, Repr

structure Query where
  projection : Variable
  /-- The graph whose statements count; without one all of them do. -/
  graph : Option Iri := none
  pattern : Group
  orderBy : List OrderKey := []
  limit : Option Nat := none
  offset : Option Nat := none
  distinct : Bool := true

end GraphPath
