import GraphPath.Pattern.Basic

/-!
# Rows

A row binds variables to nodes. Two rows that agree on the variables they share are joined to one.
-/

namespace GraphPath

abbrev Row := Table Node

namespace Row

def value? (row : Row) (v : Variable) : Option Node := row.get? v.name

def bind (row : Row) (v : Variable) (n : Node) : Row := row.insert v.name n

@[simp] theorem value?_empty (v : Variable) : Row.value? .empty v = none := rfl

@[simp] theorem value?_bind (row : Row) (v w : Variable) (n : Node) :
    (row.bind v n).value? w = if w = v then some n else row.value? w := by
  have hname : w.name = v.name ↔ w = v := by
    cases v
    cases w
    simp
  simp [value?, bind, hname]

/-- Whether no variable has different values in the two rows. -/
def agrees (left right : Row) : Bool :=
  right.entries.all fun (name, n) =>
    match left.get? name with
    | some bound => bound = n
    | none => true

/-- The bindings of both rows. -/
def merge (left right : Row) : Row := left.insertAll right.entries

/-- Every row on the left merged with every row on the right that agrees with it. -/
def join (left right : List Row) : List Row :=
  left.flatMap fun l => (right.filter l.agrees).map l.merge

/-- The row with the binding of one variable only. -/
def restrict (row : Row) (v : Variable) : Row :=
  match row.value? v with
  | some n => Row.bind .empty v n
  | none => .empty

end Row

/-- The node that a term stands for in a row. -/
def Term.value? (t : Term) (row : Row) : Option Node :=
  match t with
  | .var v => row.value? v
  | .node n => some n

/-- The row in which a term stands for a node: a variable that is not yet bound is bound to it. -/
def Term.unify (t : Term) (n : Node) (row : Row) : Option Row :=
  match t.value? row, t with
  | some bound, _ => if bound = n then some row else none
  | none, .var v => some (row.bind v n)
  | none, .node _ => none

end GraphPath
