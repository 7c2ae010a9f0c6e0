import GraphPath.Compile.Selector

/-!
# Criteria

A criterion asks that a path leads from a resource to some value, and that the value matches what
is expected of it.
-/

namespace GraphPath

/-- How a value is matched: by comparison, or by a text that occurs in it. -/
inductive MatchOp where
  | comparison (op : Comparison)
  | contains
deriving DecidableEq, Repr

namespace MatchOp

def all : List MatchOp :=
  [comparison .eq, comparison .ne, comparison .lt, comparison .le, comparison .gt, comparison .ge,
   contains]

def name : MatchOp → String
  | comparison .eq => "eq"
  | comparison .ne => "ne"
  | comparison .lt => "lt"
  | comparison .le => "le"
  | comparison .gt => "gt"
  | comparison .ge => "ge"
  | contains => "contains"

def ofName? (name : String) : Option MatchOp := all.find? (·.name = name)

end MatchOp

/-- What is expected of a value. -/
structure Constraint where
  op : MatchOp
  expected : Node
deriving DecidableEq, Repr

/-- The condition on the variable of a value. -/
def Constraint.condition (c : Constraint) (value : Variable) : Expr :=
  match c.op with
  | .comparison op => .compare op (.var value) (.term (.node c.expected))
  | .contains => .call .contains [.call .str [.var value], .literal (.plain c.expected.text)]

structure Criterion where
  selector : Selector
  constraint : Option Constraint := none
deriving DecidableEq

/-- Compiles a criterion on the variable of a resource. -/
def Criterion.emit (r : Registry) (limits : RecursionLimits) (c : Criterion) (root : Variable) :
    Emit Unit := do
  let value ← Compile.selector r limits c.selector root
  match c.constraint with
  | some constraint => Emit.write (.filter (constraint.condition value))
  | none => return ()

end GraphPath
