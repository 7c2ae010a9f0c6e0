import GraphPath.Compile.Registry
import GraphPath.Parser.Token

/-!
# Compiling selectors and tests

A selector is compiled from a context variable to the variable that holds its value, and writes the
triple patterns, alternatives, bindings and filters that relate the two. A test becomes a condition
on the context; the parts of a compound test are compiled in scopes of their own, so that what they
match is not asked of the surrounding group.
-/

namespace GraphPath.Compile

open Emit

/-- Matches every resource of the store: the subject or the object of some statement. -/
def writeAnyResource (context : Variable) : Emit Unit := do
  let predicate ← fresh
  let object ← fresh
  let subject ← fresh
  let predicate' ← fresh
  write (.union
    [[.ofTriple (.var context) (.var predicate) (.var object)],
     [.ofTriple (.var subject) (.var predicate') (.var context)]])

/-- A branch that binds its value to the common output. A branch that yields its context first
binds it to any resource, so that it also matches where the context is not bound yet. -/
def closeBranch (context output : Variable) (branch : Variable × Group) : Emit Group := do
  let ((), tail) ← captured do
    if branch.1 = context then
      writeAnyResource context
    write (.bind (.var branch.1) output)
  return branch.2 ++ tail

/-- Alternatives with one output variable, each compiled in a group of its own. -/
def alternatives (context : Variable) (branches : List (Emit Variable)) : Emit Variable := do
  let compiled ← inOrder (branches.map captured)
  let output ← fresh
  let groups ← inOrder (compiled.map (closeBranch context output))
  write (.union groups)
  return output

/-- How many branches memory has room for: a branch is a group and a variable, of forty-eight bytes
together, and what one list takes is counted in a signed word. -/
def branchLimit : Nat := (Parser.wordLimit / 2 - 1) / 48

/-- A bound that is within the ceiling, and whose number of levels fits a machine word and memory.
-/
def withinLimits (limits : RecursionLimits) (min bound : Nat) : Except CompileError Nat :=
  if limits.maxExplicitDepth < bound ∨ Parser.wordLimit ≤ bound - min + 1 then
    .error (.recursionLimit min limits.maxExplicitDepth)
  else if branchLimit < bound - min + 1 then .error (.noRoom (bound - min + 1))
  else .ok bound

/-- The deepest level to which a repetition is unrolled: its upper bound, or else the configured
depth. -/
def unrollingBound (limits : RecursionLimits) (min : Nat) (max : Option Nat) :
    Except CompileError Nat :=
  match max with
  | some max =>
    if max < min then .error (.invertedBounds min max) else withinLimits limits min max
  | none =>
    if limits.strict then .error (.recursionLimit min limits.maxDepth)
    else withinLimits limits min (Nat.max limits.maxDepth min)

/-- The step repeated to every depth from `min` to `bound`. One depth above zero needs no
alternatives. -/
def unrolled (step : Variable → Emit Variable) (min bound : Nat) (context : Variable) :
    Emit Variable :=
  if min = bound ∧ 0 < min then iterate step min context
  else
    alternatives context
      ((List.range (bound - min + 1)).map fun i => iterate step (min + i) context)

/-- Along a property of the context, to a fresh variable. -/
def alongProperty (p : Iri) (context : Variable) : Emit Variable := do
  let output ← fresh
  writeTriple (.var context) (.iri p) (.var output)
  return output

/-- Against a property that leads to the context, to a fresh variable. -/
def againstProperty (p : Iri) (context : Variable) : Emit Variable := do
  let output ← fresh
  writeTriple (.var output) (.iri p) (.var context)
  return output

/-- Along any property of the context, to a fresh variable. -/
def alongAny (context : Variable) : Emit Variable := do
  let predicate ← fresh
  let output ← fresh
  writeTriple (.var context) (.var predicate) (.var output)
  return output

/-- A fresh variable bound to the value of an expression. -/
def bindFresh (e : Expr) : Emit Variable := do
  let output ← fresh
  write (.bind e output)
  return output

/-- A condition of the group, unless it always holds. -/
def require (e : Expr) : Emit Unit :=
  if e.isAlways then done () else write (.filter e)

/-- Two values that are to be equal, unless they are one variable. -/
def requireSame (left right : Variable) : Emit Unit :=
  if left = right then done () else write (.filter (.equals (.var left) (.var right)))

/-- A condition compiled in a scope of its own: what it wrote is asked only within the condition. -/
def enclosed (m : Emit Expr) : Emit Expr := do
  let (e, scope) ← captured m
  if scope.isEmpty then return e
  else return .exist (if e.isAlways then scope else scope ++ [.filter e])

def languageCondition (tag : String) (context : Variable) : Expr :=
  .call .langMatches [.call .lang [.var context], .literal (.plain tag)]

def datatypeCondition (type : Iri) (context : Variable) : Expr :=
  .equals (.call .datatype [.var context]) (.term (.iri type))

/-- The value of a selector as an expression; a constant stands for itself and is not compiled. -/
def asOperand (s : Selector) (compiled : Emit Variable) : Emit Expr :=
  match s with
  | .constant n => return .term (.node n)
  | _ => do
    let v ← compiled
    return .var v

/-- The rule of an extension where one is registered, else the built-in way. -/
def governed {α ρ : Type} (rule : Except CompileError (Rule ρ)) (extended : ρ → Emit α)
    (builtin : Emit α) : Emit α :=
  match rule with
  | .error e => fail e
  | .ok (.extension _ f) => extended f
  | .ok .builtin => builtin

mutual

/-- Compiles a selector by the rule of its kind. -/
def selector (r : Registry) (limits : RecursionLimits) (s : Selector) (context : Variable) :
    Emit Variable :=
  governed (r.selectorRule s.kind) (fun rule => rule s context) <|
    match s with
    | .property p => alongProperty p context
    | .reverse p => againstProperty p context
    | .path left right => do
      let middle ← selector r limits left context
      selector r limits right middle
    | .union left right =>
      alternatives context [selector r limits left context, selector r limits right context]
    | .intersection left right => do
      let l ← selector r limits left context
      let l' ← selector r limits right context
      requireSame l l'
      return l
    | .recursive inner min max => do
      let depth ← ofExcept (unrollingBound limits min max)
      unrolled (fun c => selector r limits inner c) min depth context
    | .grouping inner => selector r limits inner context
    | .testing delegate t => do
      let value ← selector r limits delegate context
      let e ← test r limits t value
      require e
      return context
    | .function name args => do
      let f ← ofExcept (r.function name)
      let values ← operands r limits args context
      let e ← ofExcept (f name values)
      bindFresh e
    | .self => return context
    | .wildcard => alongAny context
    | .constant n => bindFresh (.term (.node n))
termination_by structural s

/-- The values of selectors as expressions. -/
def operands (r : Registry) (limits : RecursionLimits) (args : List Selector)
    (context : Variable) : Emit (List Expr) :=
  match args with
  | [] => return []
  | s :: rest => do
    let e ← asOperand s (selector r limits s context)
    let more ← operands r limits rest context
    return e :: more
termination_by structural args

/-- Compiles a test by the rule of its kind. -/
def test (r : Registry) (limits : RecursionLimits) (t : Test) (context : Variable) : Emit Expr :=
  governed (r.testRule t.kind) (fun rule => rule t context) <|
    match t with
    | .isA (.constant (.iri i)) => do
      writeTriple (.var context) (.iri Iri.rdfType) (.iri i)
      return .always
    | .isA type => do
      let found ← fresh
      writeTriple (.var context) (.iri Iri.rdfType) (.var found)
      let expected ← asOperand type (selector r limits type context)
      return .equals (.var found) expected
    | .and left right => do
      let l ← enclosed (test r limits left context)
      let l' ← enclosed (test r limits right context)
      return .both l l'
    | .or left right => do
      let l ← enclosed (test r limits left context)
      let l' ← enclosed (test r limits right context)
      return .oneOf l l'
    | .not inner => do
      let e ← enclosed (test r limits inner context)
      return .not e
    | .comparison op left right => do
      let l ← asOperand left (selector r limits left context)
      let l' ← asOperand right (selector r limits right context)
      return .compare op l l'
    | .pathEquality left right => do
      let l ← asOperand left (selector r limits left context)
      let l' ← asOperand right (selector r limits right context)
      return .equals l l'
    | .pathExists path => do
      let _ ← selector r limits path context
      return .always
    | .language tag => return languageCondition tag context
    | .datatype type => return datatypeCondition type context
termination_by structural t

end

end GraphPath.Compile
