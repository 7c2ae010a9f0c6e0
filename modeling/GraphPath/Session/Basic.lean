import GraphPath.Path.Grammar
import GraphPath.Query.Endpoint
import GraphPath.Session.Criterion

/-!
# Sessions

A session collects what is asked of resources: their types, criteria on their paths, paths to order
them by, and the part of the answers that is wanted. It is built into one query, in which all
criteria hold together.
-/

namespace GraphPath

/-- Why a session gives no answer. -/
inductive SessionError where
  | parse (e : ParseError)
  | compile (e : CompileError)
  | execution (e : ExecutionError)
deriving DecidableEq

structure Session where
  registry : Registry
  settings : Settings
  /-- The short names for the paths that are added. -/
  vocabulary : Vocabulary
  graph : Option Iri := none
  types : List Iri := []
  criteria : List Criterion := []
  orderBy : List (Selector × Direction) := []
  limit : Option Nat := none
  offset : Option Nat := none

namespace Session

/-- An empty session, with the common short names and those of the settings. -/
def start (registry : Registry) (settings : Settings) (graph : Option Iri) : Session where
  registry := registry
  settings := settings
  vocabulary := Vocabulary.common.insertAll settings.vocabulary.entries
  graph := graph

/-- Declares a short name for the paths added from now on. -/
def declare (s : Session) (short ns : String) : Session :=
  { s with vocabulary := s.vocabulary.insert short ns }

def addCriterion (s : Session) (c : Criterion) : Session :=
  { s with criteria := s.criteria ++ [c] }

/-- Adds a criterion on a path given as text. -/
def addPath (s : Session) (path : String) (constraint : Option Constraint) :
    Except ParseError Session := do
  let selector ← Selector.parse s.vocabulary path
  return s.addCriterion ⟨selector, constraint⟩

/-- Asks for resources of a type. -/
def restrictType (s : Session) (type : Iri) : Session :=
  { s with types := s.types ++ [type] }

/-- Orders by the value of a path given as text. Resources without a value are kept. -/
def addOrder (s : Session) (path : String) (direction : Direction) :
    Except ParseError Session := do
  let selector ← Selector.parse s.vocabulary path
  return { s with orderBy := s.orderBy ++ [(selector, direction)] }

/-- The variable of the resources asked for. -/
def root (s : Session) : Variable := ⟨s.settings.resultVariable⟩

/-- Writes the condition that the resource has a type. -/
def emitType (root : Variable) (type : Iri) : Emit Unit :=
  Emit.writeTriple (.var root) (.iri Iri.rdfType) (.iri type)

/-- Compiles an ordering; what it needs is optional. -/
def emitOrder (s : Session) (key : Selector × Direction) : Emit OrderKey := do
  let (target, inner) ← Emit.captured
    (Compile.selector s.registry s.settings.recursion key.1 s.root)
  if !inner.isEmpty then
    Emit.write (.optional inner)
  return ⟨target, key.2⟩

/-- Writes the whole pattern, and gives the variables to order by. -/
def emit (s : Session) : Emit (List OrderKey) := do
  let _ ← Emit.inOrder (s.types.map (emitType s.root))
  let _ ← Emit.inOrder
    (s.criteria.map fun c => c.emit s.registry s.settings.recursion s.root)
  Emit.inOrder (s.orderBy.map s.emitOrder)

/-- The query of the session. It fails as a whole if one of its parts does. -/
def build (s : Session) : Except CompileError Query := do
  let emission ← s.emit (.ofSettings s.settings)
  return {
    projection := s.root
    graph := s.graph
    pattern := emission.elements
    orderBy := emission.value
    limit := s.limit
    offset := s.offset
    distinct := s.settings.distinct }

/-- The rows that an endpoint gives for the query. -/
def select (s : Session) (endpoint : Endpoint) : Except SessionError (List Row) := do
  let query ← s.build.mapError .compile
  (endpoint query).mapError .execution

/-- The resources that an endpoint gives for the query, in its order. -/
def execute (s : Session) (endpoint : Endpoint) : Except SessionError (List Iri) := do
  let rows ← s.select endpoint
  return rows.filterMap fun row => (row.value? s.root).bind Node.iri?

end Session

end GraphPath
