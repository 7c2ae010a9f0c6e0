import GraphPath.Sorting.Short

/-!
# Sorting by runs

Stable sorting of long lists. A list is cut into runs, which are sorted already or are left for
later, and neighbouring runs are merged in an order that keeps the merged runs balanced. Long runs
that are not sorted are split around an item again and again.
-/

namespace GraphPath.Sorting

variable {α : Type}

/-! ## Splitting around an item -/

/-- The item of three places that is between the two others. -/
def medianOfThree (lessAt : Nat → Nat → Bool) (a b c : Nat) : Nat :=
  let below := lessAt a b
  if below = lessAt a c then (if lessAt b c != below then c else b) else a

/-- The median of three parts of a list, each of them given by its place and `width` items long;
long parts have medians of their own. -/
def medianOfParts (lessAt : Nat → Nat → Bool) (a b c width : Nat) : Nat :=
  if 8 ≤ width then
    let step := width / 8
    let median (place : Nat) : Nat :=
      medianOfParts lessAt place (place + 4 * step) (place + 7 * step) step
    medianOfThree lessAt (median a) (median b) (median c)
  else medianOfThree lessAt a b c
termination_by width
decreasing_by all_goals omega

/-- The place of the item that a list is split around. -/
def pivotPlace (less : α → α → Bool) (items : List α) : Nat :=
  let lessAt (i j : Nat) : Bool :=
    match items[i]?, items[j]? with
    | some a, some b => less a b
    | _, _ => false
  let width := items.length / 8
  if items.length < 64 then medianOfThree lessAt 0 (4 * width) (7 * width)
  else medianOfParts lessAt 0 (4 * width) (7 * width) width

/-- The items that belong to the left and those that do not, in their order; the item that a list is
split around is told by itself. -/
def splitAround (goesLeft : α → Bool) (before : List α) (pivot : α) (pivotGoesLeft : Bool)
    (after : List α) : List α × List α :=
  let middle := if pivotGoesLeft then ([pivot], []) else ([], [pivot])
  (before.filter goesLeft ++ middle.1 ++ after.filter goesLeft,
    before.filter (!goesLeft ·) ++ middle.2 ++ after.filter (!goesLeft ·))

/-- Sorts a list by splitting it, at most `n` times in a row, and then by another method. The list
stands on the right of the item `floor`, if one is given: then items that tie with it are split off
together, and so are they if nothing comes before the chosen item. -/
def splitSort (less : α → α → Bool) (other : List α → List α) : Nat → Option α → List α → List α
  | n, floor, items =>
    if items.length ≤ shortLength then shortSort less items
    else
      match n with
      | 0 => other items
      | n + 1 =>
        let place := pivotPlace less items
        match items.drop place with
        | [] => other items
        | pivot :: after =>
          let before := items.take place
          let (left, right) := splitAround (less · pivot) before pivot false after
          if floor.any (fun item => !less item pivot) || left.isEmpty then
            let (ties, rest) := splitAround (fun item => !less pivot item) before pivot true after
            ties ++ splitSort less other n none rest
          else splitSort less other n floor left ++ splitSort less other n (some pivot) right

/-! ## Runs -/

/-- A part of a list, sorted or not. -/
structure Run (α : Type) where
  items : List α
  sorted : Bool

/-- How many items at the front of a list are related, each to the one before it. -/
def chainLength (related : α → α → Bool) : List α → Nat
  | a :: b :: rest => if related a b then chainLength related (b :: rest) + 1 else 1
  | items => items.length

/-- How a list is cut into runs. -/
structure Cut where
  /-- The length from which on a run that is sorted already counts. -/
  goodLength : Nat
  /-- Whether all other runs are sorted at once. -/
  eager : Bool

/-- Whether the second item of a list comes before the first one. -/
def falls (less : α → α → Bool) : List α → Bool
  | a :: b :: _ => less b a
  | _ => false

/-- The run at the front of a list, and the rest of the list. A run that falls strictly is
reversed. -/
def Cut.front (cut : Cut) (less : α → α → Bool) (items : List α) : Run α × List α :=
  let length := chainLength (fun a b => less b a == falls less items) items
  if cut.goodLength ≤ length then
    let run := items.take length
    (⟨if falls less items then run.reverse else run, true⟩, items.drop length)
  else if cut.eager then
    (⟨shortSort less (items.take shortLength), true⟩, items.drop shortLength)
  else (⟨items.take cut.goodLength, false⟩, items.drop cut.goodLength)

/-- The runs of a list, at most `n` of them and one more. -/
def Cut.runs (cut : Cut) (less : α → α → Bool) : Nat → List α → List (Run α)
  | _, [] => []
  | 0, items => [⟨items, false⟩]
  | n + 1, items =>
    let (run, rest) := cut.front less items
    run :: cut.runs less n rest

/-- The items of a run in order, given how to sort them. -/
def Run.settled (sort : List α → List α) (run : Run α) : List α :=
  if run.sorted then run.items else sort run.items

/-- Joins two runs. They are merged if one of them is sorted, and are left for later otherwise. -/
def Run.join (less : α → α → Bool) (sort : List α → List α) (left right : Run α) : Run α :=
  if left.sorted || right.sorted then
    ⟨merge less (left.settled sort) (right.settled sort), true⟩
  else ⟨left.items ++ right.items, false⟩

/-- Joins a run with the runs before it, from the last one back to the first that belongs less deep
than `depth`. -/
def joinBack (join : Run α → Run α → Run α) (depth : Nat) :
    Run α → List (Run α × Nat) → Run α × List (Run α × Nat)
  | run, [] => (run, [])
  | run, (last, lastDepth) :: earlier =>
    if depth ≤ lastDepth then joinBack join depth (join last run) earlier
    else (run, (last, lastDepth) :: earlier)

/-- How deep two neighbouring runs are to be joined, given where they start and end: the number of
halvings of the whole list until a cut falls between their centres. The scale makes the whole list
`2 ^ 62` long. -/
def joinDepth (scale start middle finish : Nat) : Nat :=
  let difference := (scale * (start + middle)) ^^^ (scale * (middle + finish))
  if difference = 0 then 64 else 63 - difference.log2

/-- Joins all runs: those before `run` with their depths, the last one first, and those after it.
The runs up to `run` end at `place`. -/
def joinAll (join : Run α → Run α → Run α) (scale place : Nat) (run : Run α)
    (earlier : List (Run α × Nat)) : List (Run α) → Run α
  | [] => (joinBack join 0 run earlier).1
  | next :: rest =>
    let finish := place + next.items.length
    let depth := joinDepth scale (place - run.items.length) place finish
    let (joined, earlier) := joinBack join depth run earlier
    joinAll join scale finish next ((joined, depth) :: earlier) rest

/-- The length from which on a run that is sorted already counts: half of a short list, 64, or about
the square root of a long one. -/
def goodRunLength (length : Nat) : Nat :=
  if length ≤ 4096 then min (length - length / 2) 64
  else
    let shift := (length.log2 + 1) / 2
    ((1 <<< shift) + (length >>> shift)) / 2

/-- Sorts a list by runs, given how runs are sorted that are left for later. -/
def runSort (less : α → α → Bool) (eager : Bool) (sort : List α → List α) (items : List α) :
    List α :=
  let length := items.length
  let cut : Cut := ⟨goodRunLength length, eager⟩
  match cut.runs less length items with
  | [] => []
  | run :: rest =>
    let scale := ((1 <<< 62) + length - 1) / length
    (joinAll (Run.join less sort) scale run.items.length run [] rest).settled sort

/-- Sorts a long run that is not sorted. After many uneven splits its parts are sorted by runs. -/
def longSort (less : α → α → Bool) (items : List α) : List α :=
  splitSort less (runSort less true id) (2 * items.length.log2) none items

/-- Sorts a list. Items that tie stay in the order they came. -/
def sort (less : α → α → Bool) (items : List α) : List α :=
  if items.length ≤ 20 then insertionSort less items
  else runSort less (items.length ≤ 2 * shortLength) (longSort less) items

end GraphPath.Sorting
