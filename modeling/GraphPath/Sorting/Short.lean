/-!
# Sorting short lists

Stable sorting by a relation that tells whether one item comes before another: insertion, merging
from either end, and a method for short lists that sorts two halves and merges them from both ends.
Each of them lists the items it is given. If the relation is no order, what the result is depends on
which items are compared, and that is fixed here.
-/

namespace GraphPath.Sorting

variable {α : Type}

/-- Puts an item among sorted ones, listed from the last to the first: behind those that it does not
come before. -/
def settle (less : α → α → Bool) (item : α) : List α → List α
  | [] => [item]
  | last :: earlier =>
    if less item last then last :: settle less item earlier else item :: last :: earlier

/-- Puts items one by one among sorted ones. -/
def settleAll (less : α → α → Bool) (sorted items : List α) : List α :=
  (items.foldl (fun sorted item => settle less item sorted) sorted.reverse).reverse

def insertionSort (less : α → α → Bool) (items : List α) : List α := settleAll less [] items

/-- Merges two sorted lists from their fronts; of two items that tie, the left one comes first. -/
def mergeFront (less : α → α → Bool) (left right : List α) : List α :=
  left.merge right fun a b => !less b a

/-- Merges two sorted lists from their backs; of two items that tie, the right one comes last. -/
def mergeBack (less : α → α → Bool) (left right : List α) : List α :=
  (left.reverse.merge right.reverse fun a b => less b a).reverse

/-- Merges two sorted lists from the end of the shorter one's side. -/
def merge (less : α → α → Bool) (left right : List α) : List α :=
  if left.length ≤ right.length then mergeFront less left right else mergeBack less left right

/-- Merges two sorted lists from their fronts for some items, and the rest from their backs. -/
def mergeBothEnds (less : α → α → Bool) : Nat → List α → List α → List α
  | 0, left, right => mergeBack less left right
  | _ + 1, [], right => right
  | _ + 1, left, [] => left
  | n + 1, a :: left, b :: right =>
    if less b a then b :: mergeBothEnds less n (a :: left) right
    else a :: mergeBothEnds less n left (b :: right)

/-- Sorts four items with five comparisons: two pairs, then the ends of them, and then the two items
between. -/
def sortFour (less : α → α → Bool) (w x y z : α) : List α :=
  let (a, b) := if less x w then (x, w) else (w, x)
  let (c, d) := if less z y then (z, y) else (y, z)
  let low := less c a
  let high := less d b
  let first := if low then c else a
  let last := if high then b else d
  let left := if low then a else if high then c else b
  let right := if high then d else if low then b else c
  if less right left then [first, right, left, last] else [first, left, right, last]

/-- Sorts a list by inserting, after its first four items are sorted. -/
def sortHalf (less : α → α → Bool) : List α → List α
  | w :: x :: y :: z :: rest => settleAll less (sortFour less w x y z) rest
  | items => insertionSort less items

/-- How many items are sorted as a short list. -/
def shortLength : Nat := 32

/-- Sorts a short list by halves. -/
def shortSort (less : α → α → Bool) (items : List α) : List α :=
  let half := items.length / 2
  let sort := if items.length < 8 then insertionSort less else sortHalf less
  mergeBothEnds less half (sort (items.take half)) (sort (items.drop half))

end GraphPath.Sorting
