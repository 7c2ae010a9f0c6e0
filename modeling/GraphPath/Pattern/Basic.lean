import GraphPath.Path.Selector
import GraphPath.Table

/-!
# Graph patterns

What a query asks of the statements: a group of elements that are to hold together. Elements are
triple patterns, nested groups, alternatives, optional groups, filters and bindings, and filters may
again ask whether a group has a match.
-/

namespace GraphPath

structure Variable where
  name : String
deriving DecidableEq, Repr

def Variable.render (v : Variable) : String := "?" ++ v.name

inductive Term where
  | var (v : Variable)
  | node (n : Node)
deriving DecidableEq, Repr

namespace Term

def iri (i : Iri) : Term := .node (.iri i)

def literal (l : Literal) : Term := .node (.literal l)

def render : Term → String
  | var v => v.render
  | node n => n.render

def vars : Term → List Variable
  | var v => [v]
  | node _ => []

end Term

structure TriplePattern where
  subject : Term
  predicate : Term
  object : Term
deriving DecidableEq, Repr

namespace TriplePattern

def render (t : TriplePattern) : String :=
  t.subject.render ++ " " ++ t.predicate.render ++ " " ++ t.object.render

def vars (t : TriplePattern) : List Variable :=
  t.subject.vars ++ t.predicate.vars ++ t.object.vars

end TriplePattern

/-- The functions that a store computes. -/
inductive Builtin where
  | str
  | lcase
  | ucase
  | strlen
  | concat
  | lang
  | datatype
  | langMatches
  | contains
deriving DecidableEq, Repr

namespace Builtin

def all : List Builtin :=
  [str, lcase, ucase, strlen, concat, lang, datatype, langMatches, contains]

/-- The name of the function in the query language. -/
def name : Builtin → String
  | str => "STR"
  | lcase => "LCASE"
  | ucase => "UCASE"
  | strlen => "STRLEN"
  | concat => "CONCAT"
  | lang => "LANG"
  | datatype => "DATATYPE"
  | langMatches => "langMatches"
  | contains => "CONTAINS"

end Builtin

mutual

inductive Expr where
  /-- What is always true. -/
  | always
  | term (t : Term)
  | not (e : Expr)
  | and (left right : Expr)
  | or (left right : Expr)
  | compare (op : Comparison) (left right : Expr)
  /-- Whether the group has a match. -/
  | exist (scope : List Element)
  /-- The first argument that has a value. -/
  | coalesce (args : List Expr)
  | call (function : Builtin) (args : List Expr)

inductive Element where
  | triple (t : TriplePattern)
  | group (inner : List Element)
  | union (branches : List (List Element))
  | optional (inner : List Element)
  /-- A condition on the whole group that the filter stands in. -/
  | filter (e : Expr)
  | bind (e : Expr) (target : Variable)

end

abbrev Group := List Element

namespace Expr

def var (v : Variable) : Expr := .term (.var v)

def literal (l : Literal) : Expr := .term (.literal l)

def equals (left right : Expr) : Expr := .compare .eq left right

def isAlways : Expr → Bool
  | always => true
  | _ => false

/-- Both conditions; one that is always true is left out. -/
def both : Expr → Expr → Expr
  | always, e => e
  | e, always => e
  | l, r => .and l r

/-- One of the conditions; with one that is always true it is always true. -/
def oneOf : Expr → Expr → Expr
  | always, _ => always
  | _, always => always
  | l, r => .or l r

end Expr

def Element.ofTriple (subject predicate object : Term) : Element :=
  .triple ⟨subject, predicate, object⟩

mutual

/-- The triple patterns of the groups that an expression asks about. -/
def Expr.triples : Expr → List TriplePattern
  | .always => []
  | .term _ => []
  | .not e => e.triples
  | .and l r => l.triples ++ r.triples
  | .or l r => l.triples ++ r.triples
  | .compare _ l r => l.triples ++ r.triples
  | .exist scope => Element.groupTriples scope
  | .coalesce args => Expr.listTriples args
  | .call _ args => Expr.listTriples args

def Expr.listTriples : List Expr → List TriplePattern
  | [] => []
  | e :: rest => e.triples ++ Expr.listTriples rest

/-- The triple patterns of an element, those of nested groups included. -/
def Element.triples : Element → List TriplePattern
  | .triple t => [t]
  | .group inner => Element.groupTriples inner
  | .union branches => Element.branchTriples branches
  | .optional inner => Element.groupTriples inner
  | .filter e => e.triples
  | .bind e _ => e.triples

def Element.groupTriples : List Element → List TriplePattern
  | [] => []
  | e :: rest => e.triples ++ Element.groupTriples rest

def Element.branchTriples : List (List Element) → List TriplePattern
  | [] => []
  | g :: rest => Element.groupTriples g ++ Element.branchTriples rest

end

mutual

/-- The variables in an expression, as often as they stand there. -/
def Expr.vars : Expr → List Variable
  | .always => []
  | .term t => t.vars
  | .not e => e.vars
  | .and l r => l.vars ++ r.vars
  | .or l r => l.vars ++ r.vars
  | .compare _ l r => l.vars ++ r.vars
  | .exist scope => Element.groupVars scope
  | .coalesce args => Expr.listVars args
  | .call _ args => Expr.listVars args

def Expr.listVars : List Expr → List Variable
  | [] => []
  | e :: rest => e.vars ++ Expr.listVars rest

/-- The variables in an element, as often as they stand there. -/
def Element.vars : Element → List Variable
  | .triple t => t.vars
  | .group inner => Element.groupVars inner
  | .union branches => Element.branchVars branches
  | .optional inner => Element.groupVars inner
  | .filter e => e.vars
  | .bind e target => e.vars ++ [target]

def Element.groupVars : List Element → List Variable
  | [] => []
  | e :: rest => e.vars ++ Element.groupVars rest

def Element.branchVars : List (List Element) → List Variable
  | [] => []
  | g :: rest => Element.groupVars g ++ Element.branchVars rest

end

namespace Group

/-- Every triple pattern, those of nested groups included. -/
def triples (g : Group) : List TriplePattern := Element.groupTriples g

/-- Every variable, as often as it stands in the group. -/
def vars (g : Group) : List Variable := Element.groupVars g

/-- The names of the variables in increasing order, each once. -/
def variableNames (g : Group) : List String :=
  ((g.vars.map Variable.name).mergeSort fun a b => (compare a b).isLE).eraseReps

end Group

end GraphPath
