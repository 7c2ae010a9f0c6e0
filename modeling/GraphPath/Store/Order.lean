import GraphPath.Query.Endpoint
import GraphPath.Sorting.Perm

/-!
# Order of answers

Rows are ordered by the values of some variables. A variable without a value comes first, then
resources, then literals: two numbers by value, other literals by their texts.
-/

namespace GraphPath

/-- The order of two literals; a value that is not a number ties with every number. -/
def Literal.sortOrder (l r : Literal) : Ordering :=
  match l.number?, r.number? with
  | some x, some y => (x.compare? y).getD .eq
  | _, _ => compare l.value r.value

def Node.sortOrder : Node → Node → Ordering
  | .iri l, .iri r => compare l.text r.text
  | .iri _, .literal _ => .lt
  | .literal _, .iri _ => .gt
  | .literal l, .literal r => l.sortOrder r

/-- The order of two values that may be missing. -/
def valueOrder : Option Node → Option Node → Ordering
  | none, none => .eq
  | none, some _ => .lt
  | some _, none => .gt
  | some l, some r => l.sortOrder r

def Direction.apply : Direction → Ordering → Ordering
  | .ascending, o => o
  | .descending, o => o.swap

namespace Row

/-- The order of two rows: the first key on which they differ decides. -/
def sortOrder : List OrderKey → Row → Row → Ordering
  | [], _, _ => .eq
  | key :: keys, a, b =>
    (key.direction.apply (valueOrder (a.value? key.target) (b.value? key.target))).then
      (sortOrder keys a b)

/-- The rows in increasing order, those that tie in the order they came. -/
def sort (keys : List OrderKey) (rows : List Row) : List Row :=
  Sorting.sort (fun a b => (sortOrder keys a b).isLT) rows

theorem sort_perm (keys : List OrderKey) (rows : List Row) : (sort keys rows).Perm rows :=
  Sorting.sort_perm _ rows

end Row

end GraphPath
