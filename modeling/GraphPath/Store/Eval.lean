import GraphPath.Store.Order
import GraphPath.Store.Quad
import GraphPath.Store.Value

/-!
# Evaluation

The rows of a group are found from left to right. A triple pattern or a binding extends the rows
found so far; nested groups, alternatives and optional groups are evaluated on their own and joined
in. The filters of a group are applied to its complete rows, and those of an optional group to the
merged rows. A group in an expression starts from the row of the expression.
-/

namespace GraphPath

/-- What a query is evaluated against: the statements it sees, and the number of rows that no step
may exceed. -/
structure Snapshot where
  quads : List Quad
  cap : Nat

/-- The row in which the pattern stands for a statement. -/
def TriplePattern.unify (t : TriplePattern) (row : Row) (q : Quad) : Option Row := do
  let row ← t.subject.unify (.iri q.subject) row
  let row ← t.predicate.unify (.iri q.predicate) row
  t.object.unify q.object row

/-- Every row extended by every statement that the pattern matches. -/
def TriplePattern.extend (t : TriplePattern) (quads : List Quad) (rows : List Row) : List Row :=
  rows.flatMap fun row => quads.filterMap (t.unify row)

namespace Row

variable {ε : Type}

/-- Replaces every row by those found for it. The first error ends the search. -/
def collect (find : Row → Except ε (List Row)) (rows : List Row) : Except ε (List Row) := do
  return (← rows.mapM find).flatten

@[simp] theorem collect_nil (find : Row → Except ε (List Row)) : collect find [] = .ok [] := rfl

theorem collect_cons (find : Row → Except ε (List Row)) (row : Row) (rows : List Row) :
    collect find (row :: rows) = (do
      let found ← find row
      let others ← collect find rows
      return found ++ others) := by
  simp [collect]

/-- The rows that pass a check. -/
def keep (check : Row → Except ε Bool) : List Row → Except ε (List Row) :=
  collect fun row => do return if ← check row then [row] else []

/-- Every row on the left merged with the agreeing rows on the right that pass a check, or left as
it is if there is none. -/
def leftJoin (check : Row → Except ε Bool) (left right : List Row) : Except ε (List Row) :=
  collect (fun l => do
    let merged ← keep check ((right.filter l.agrees).map l.merge)
    return if merged.isEmpty then [l] else merged) left

end Row

mutual

/-- The value of an expression in a row. -/
def Expr.eval (s : Snapshot) : Expr → Row → Except ExecutionError (Option Node)
  | .always, _ => return ofTruth (some true)
  | .term t, row => return t.value? row
  | .not e, row => do
    let value ← Expr.eval s e row
    return ofTruth ((truth? value).map not)
  | .and left right, row => do
    let l ← Expr.eval s left row
    let r ← Expr.eval s right row
    return ofTruth (bothTrue (truth? l) (truth? r))
  | .or left right, row => do
    let l ← Expr.eval s left row
    let r ← Expr.eval s right row
    return ofTruth (someTrue (truth? l) (truth? r))
  | .compare op left right, row => do
    let l? ← Expr.eval s left row
    let r? ← Expr.eval s right row
    return ofTruth do
      let l ← l?
      let r ← r?
      op.apply l r
  | .exist scope, row => do
    let rows ← Element.extendAll s scope [row]
    let kept ← Row.keep (Element.passAll s scope) rows
    return ofTruth (some !kept.isEmpty)
  | .coalesce args, row => Expr.firstValue s args row
  | .call f args, row => do
    let values? ← Expr.allValues s args row
    return values?.bind f.apply
termination_by structural e => e

/-- The first value that one of the expressions has. -/
def Expr.firstValue (s : Snapshot) : List Expr → Row → Except ExecutionError (Option Node)
  | [], _ => return none
  | e :: rest, row => do
    match ← Expr.eval s e row with
    | some value => return some value
    | none => Expr.firstValue s rest row
termination_by structural args => args

/-- The values of the expressions if all of them have one. -/
def Expr.allValues (s : Snapshot) : List Expr → Row → Except ExecutionError (Option (List Node))
  | [], _ => return some []
  | e :: rest, row => do
    match ← Expr.eval s e row with
    | none => return none
    | some value =>
      let values? ← Expr.allValues s rest row
      return values?.map (value :: ·)
termination_by structural args => args

/-- The rows after an element of their group; filters leave them as they are. -/
def Element.extend (s : Snapshot) : Element → List Row → Except ExecutionError (List Row)
  | .triple t, rows => return t.extend s.quads rows
  | .group inner, rows => do
    let found ← Element.extendAll s inner [.empty]
    let kept ← Row.keep (Element.passAll s inner) found
    return Row.join rows kept
  | .union branches, rows => do
    let found ← Element.branchRows s branches
    return Row.join rows found
  | .optional inner, rows => do
    let found ← Element.extendAll s inner [.empty]
    Row.leftJoin (Element.passAll s inner) rows found
  | .filter _, rows => return rows
  | .bind e target, rows =>
    Row.collect (fun row => do
      if (row.value? target).isSome then return [row]
      match ← Expr.eval s e row with
      | some value => return [row.bind target value]
      | none => return [row]) rows
termination_by structural e => e

/-- The rows after the elements of a group, before its filters. -/
def Element.extendAll (s : Snapshot) : List Element → List Row → Except ExecutionError (List Row)
  | [], rows => return rows
  | e :: rest, rows => do
    let extended ← Element.extend s e rows
    if s.cap < extended.length then throw (.tooManyRows s.cap)
    Element.extendAll s rest extended
termination_by structural g => g

/-- The rows of each branch, evaluated on its own. -/
def Element.branchRows (s : Snapshot) : List (List Element) → Except ExecutionError (List Row)
  | [] => return []
  | g :: rest => do
    let found ← Element.extendAll s g [.empty]
    let kept ← Row.keep (Element.passAll s g) found
    let others ← Element.branchRows s rest
    return kept ++ others
termination_by structural branches => branches

/-- Whether a row passes an element, which only a filter can refuse. -/
def Element.pass (s : Snapshot) : Element → Row → Except ExecutionError Bool
  | .filter e, row => do
    let value ← Expr.eval s e row
    return truth? value = some true
  | _, _ => return true
termination_by structural e => e

/-- Whether a row passes the filters of a group; the first that refuses it decides. -/
def Element.passAll (s : Snapshot) : List Element → Row → Except ExecutionError Bool
  | [], _ => return true
  | e :: rest, row => do
    if ← Element.pass s e row then Element.passAll s rest row else return false
termination_by structural g => g

end

/-- The rows of a group that start from the given ones. -/
def Group.rows (s : Snapshot) (g : Group) (seeds : List Row) :
    Except ExecutionError (List Row) := do
  let found ← Element.extendAll s g seeds
  Row.keep (Element.passAll s g) found

theorem Expr.eval_exist (s : Snapshot) (scope : Group) (row : Row) :
    Expr.eval s (.exist scope) row = (do
      let kept ← Group.rows s scope [row]
      return ofTruth (some !kept.isEmpty)) := by
  simp [Expr.eval, Group.rows]

theorem Element.extend_group (s : Snapshot) (inner : Group) (rows : List Row) :
    Element.extend s (.group inner) rows = (do
      let kept ← Group.rows s inner [.empty]
      return Row.join rows kept) := by
  simp [Element.extend, Group.rows]

theorem Element.branchRows_cons (s : Snapshot) (g : Group) (rest : List Group) :
    Element.branchRows s (g :: rest) = (do
      let kept ← Group.rows s g [.empty]
      let others ← Element.branchRows s rest
      return kept ++ others) := by
  simp [Element.branchRows, Group.rows]

namespace Query

/-- The answers among the rows of the pattern: the values of one variable in order, each once if the
query asks for that, and of them the part between offset and limit. -/
def answers (q : Query) (rows : List Row) : List Row :=
  let projected := (Row.sort q.orderBy rows).map (·.restrict q.projection)
  let listed := if q.distinct then projected.eraseDups else projected
  let rest := listed.drop (q.offset.getD 0)
  match q.limit with
  | some n => rest.take n
  | none => rest

/-- Evaluates a query over statements. -/
def eval (q : Query) (quads : List Quad) (cap : Nat) : Except ExecutionError (List Row) := do
  let s : Snapshot := ⟨quads.filter (Quad.isVisible q.graph), cap⟩
  return q.answers (← Group.rows s q.pattern [.empty])

end Query

end GraphPath
