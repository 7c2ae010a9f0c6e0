import GraphPath.Sorting.Runs
import Mathlib.Logic.Function.Defs

/-!
# Sorting looks at keys only

Sorting the images of items by a relation gives the images of the items sorted by the relation of
their images: which comparisons are made, and how they come out, does not depend on anything else.
This holds for every relation, be it an order or not.
-/

namespace GraphPath.Sorting

open Function (onFun)

variable {α β : Type} (less : β → β → Bool) (f : α → β)

private theorem settle_map (item : α) (sorted : List α) :
    settle less (f item) (sorted.map f) = (settle (onFun less f) item sorted).map f := by
  induction sorted with
  | nil => rfl
  | cons last earlier ih =>
    simp only [List.map_cons, settle, onFun]
    split
    · rw [List.map_cons, ih]
    · rfl

private theorem settleAll_map (sorted items : List α) :
    settleAll less (sorted.map f) (items.map f) =
      (settleAll (onFun less f) sorted items).map f := by
  have hfold (start : List α) :
      (items.map f).foldl (fun sorted item => settle less item sorted) (start.map f) =
        (items.foldl (fun sorted item => settle (onFun less f) item sorted) start).map f := by
    induction items generalizing start with
    | nil => rfl
    | cons item items ih =>
      simp only [List.map_cons, List.foldl_cons]
      rw [settle_map, ih]
  rw [settleAll, settleAll, ← List.map_reverse, hfold, List.map_reverse]

private theorem insertionSort_map (items : List α) :
    insertionSort less (items.map f) = (insertionSort (onFun less f) items).map f :=
  settleAll_map less f [] items

private theorem mergeFront_map (left right : List α) :
    mergeFront less (left.map f) (right.map f) =
      (mergeFront (onFun less f) left right).map f := by
  rw [mergeFront, mergeFront, List.map_merge]
  intros
  rfl

private theorem mergeBack_map (left right : List α) :
    mergeBack less (left.map f) (right.map f) = (mergeBack (onFun less f) left right).map f := by
  rw [mergeBack, mergeBack, List.map_reverse, ← List.map_reverse, ← List.map_reverse,
    List.map_merge]
  intros
  rfl

private theorem merge_map (left right : List α) :
    merge less (left.map f) (right.map f) = (merge (onFun less f) left right).map f := by
  simp only [merge, List.length_map]
  split
  · exact mergeFront_map less f left right
  · exact mergeBack_map less f left right

private theorem mergeBothEnds_map (n : Nat) (left right : List α) :
    mergeBothEnds less n (left.map f) (right.map f) =
      (mergeBothEnds (onFun less f) n left right).map f := by
  induction n generalizing left right with
  | zero => exact mergeBack_map less f left right
  | succ n ih =>
    cases left with
    | nil => simp [mergeBothEnds]
    | cons a left =>
      cases right with
      | nil => simp [mergeBothEnds]
      | cons b right =>
        simp only [List.map_cons, mergeBothEnds, onFun]
        split
        · rw [List.map_cons, ← ih (a :: left) right]
          rfl
        · rw [List.map_cons, ← ih left (b :: right)]
          rfl

private theorem sortFour_map (w x y z : α) :
    sortFour less (f w) (f x) (f y) (f z) = (sortFour (onFun less f) w x y z).map f := by
  have hpair (a b : α) : (if less (f b) (f a) then (f b, f a) else (f a, f b)) =
      Prod.map f f (if less (f b) (f a) then (b, a) else (a, b)) := by
    split <;> rfl
  simp only [sortFour, onFun, hpair, Prod.map, apply_ite f, apply_ite (List.map f), List.map_cons,
    List.map_nil]

private theorem sortHalf_map (items : List α) :
    sortHalf less (items.map f) = (sortHalf (onFun less f) items).map f := by
  match items with
  | w :: x :: y :: z :: rest =>
    simp only [List.map_cons, sortHalf]
    rw [sortFour_map, settleAll_map]
  | [] => exact insertionSort_map less f []
  | [x] => exact insertionSort_map less f [x]
  | [x, y] => exact insertionSort_map less f [x, y]
  | [x, y, z] => exact insertionSort_map less f [x, y, z]

private theorem shortSort_map (items : List α) :
    shortSort less (items.map f) = (shortSort (onFun less f) items).map f := by
  simp only [shortSort, List.length_map, ← List.map_take, ← List.map_drop]
  split
  · rw [insertionSort_map, insertionSort_map, mergeBothEnds_map]
  · rw [sortHalf_map, sortHalf_map, mergeBothEnds_map]

private theorem pivotPlace_map (items : List α) :
    pivotPlace less (items.map f) = pivotPlace (onFun less f) items := by
  simp only [pivotPlace, List.length_map, List.getElem?_map]
  split
  all_goals
    congr 1
    funext i j
    cases items[i]? <;> cases items[j]? <;> rfl

private theorem splitAround_map (goesLeft : β → Bool) (before : List α) (pivot : α) (b : Bool)
    (after : List α) :
    splitAround goesLeft (before.map f) (f pivot) b (after.map f) =
      Prod.map (List.map f) (List.map f)
        (splitAround (fun a => goesLeft (f a)) before pivot b after) := by
  cases b <;> simp [splitAround, List.filter_map, Function.comp_def]

private theorem splitSort_map {other : List β → List β} {other' : List α → List α}
    (hother : ∀ items, other (items.map f) = (other' items).map f) (n : Nat) (floor : Option α)
    (items : List α) :
    splitSort less other n (floor.map f) (items.map f) =
      (splitSort (onFun less f) other' n floor items).map f := by
  induction n generalizing floor items with
  | zero =>
    rw [splitSort, splitSort, List.length_map]
    split
    · exact shortSort_map less f items
    · exact hother items
  | succ n ih =>
    rw [splitSort, splitSort, List.length_map, pivotPlace_map]
    simp only [← List.map_drop, ← List.map_take]
    split
    · exact shortSort_map less f items
    · cases items.drop (pivotPlace (onFun less f) items) with
      | nil => exact hother items
      | cons pivot after =>
        simp only [List.map_cons, splitAround_map, Prod.map, Option.any_map, List.isEmpty_map]
        simp only [onFun]
        split
        · rw [List.map_append, ← ih none]
          rfl
        · rw [List.map_append, ← ih floor, ← ih (some pivot)]
          rfl

/-- The run of the images. -/
def Run.map (f : α → β) (run : Run α) : Run β := ⟨run.items.map f, run.sorted⟩

private theorem chainLength_map (related : β → β → Bool) (items : List α) :
    chainLength related (items.map f) = chainLength (onFun related f) items := by
  induction items with
  | nil => rfl
  | cons a items ih =>
    cases items with
    | nil => rfl
    | cons b rest =>
      simp only [List.map_cons, chainLength, onFun] at ih ⊢
      rw [ih]

private theorem falls_map (items : List α) :
    falls less (items.map f) = falls (onFun less f) items := by
  match items with
  | [] => rfl
  | [_] => rfl
  | _ :: _ :: _ => rfl

private theorem Cut.front_map (cut : Cut) (items : List α) :
    cut.front less (items.map f) =
      Prod.map (Run.map f) (List.map f) (cut.front (onFun less f) items) := by
  simp only [Cut.front, falls_map, chainLength_map, ← List.map_take, ← List.map_drop,
    shortSort_map, ← List.map_reverse]
  simp only [onFun]
  split
  · split <;> rfl
  · split <;> rfl

private theorem Cut.runs_map (cut : Cut) (n : Nat) (items : List α) :
    cut.runs less n (items.map f) = (cut.runs (onFun less f) n items).map (Run.map f) := by
  induction n generalizing items with
  | zero => cases items <;> rfl
  | succ n ih =>
    cases items with
    | nil => rfl
    | cons item items =>
      have hfront := cut.front_map less f (item :: items)
      rw [List.map_cons] at hfront
      simp only [List.map_cons, Cut.runs, hfront, Prod.map, ih]

private theorem Run.settled_map {sort : List β → List β} {sort' : List α → List α}
    (hsort : ∀ items, sort (items.map f) = (sort' items).map f) (run : Run α) :
    (run.map f).settled sort = (run.settled sort').map f := by
  obtain ⟨items, sorted⟩ := run
  cases sorted with
  | true => rfl
  | false => exact hsort items

private theorem Run.join_map {sort : List β → List β} {sort' : List α → List α}
    (hsort : ∀ items, sort (items.map f) = (sort' items).map f) (left right : Run α) :
    Run.join less sort (left.map f) (right.map f) =
      (Run.join (onFun less f) sort' left right).map f := by
  have hleft := Run.settled_map f hsort left
  have hright := Run.settled_map f hsort right
  unfold Run.join
  rw [hleft, hright, merge_map]
  simp only [Run.map, ← List.map_append]
  split <;> rfl

private theorem joinBack_map {join : Run β → Run β → Run β} {join' : Run α → Run α → Run α}
    (hjoin : ∀ left right, join (left.map f) (right.map f) = (join' left right).map f)
    (depth : Nat) (run : Run α) (earlier : List (Run α × Nat)) :
    joinBack join depth (run.map f) (earlier.map (Prod.map (Run.map f) id)) =
      Prod.map (Run.map f) (List.map (Prod.map (Run.map f) id))
        (joinBack join' depth run earlier) := by
  induction earlier generalizing run with
  | nil => rfl
  | cons entry earlier ih =>
    simp only [List.map_cons, Prod.map, joinBack, id_eq, hjoin]
    split
    · exact ih (join' entry.1 run)
    · rfl

private theorem joinAll_map {join : Run β → Run β → Run β} {join' : Run α → Run α → Run α}
    (hjoin : ∀ left right, join (left.map f) (right.map f) = (join' left right).map f)
    (scale place : Nat) (run : Run α) (earlier : List (Run α × Nat)) (rest : List (Run α)) :
    joinAll join scale place (run.map f) (earlier.map (Prod.map (Run.map f) id))
        (rest.map (Run.map f)) =
      (joinAll join' scale place run earlier rest).map f := by
  induction rest generalizing place run earlier with
  | nil =>
    simp only [List.map_nil, joinAll]
    rw [joinBack_map f hjoin]
    rfl
  | cons next rest ih =>
    have hlength (run : Run α) : (run.map f).items.length = run.items.length :=
      List.length_map f
    simp only [List.map_cons, joinAll, hlength]
    rw [joinBack_map f hjoin]
    exact ih _ next (((joinBack join' _ run earlier).1, _) :: (joinBack join' _ run earlier).2)

private theorem runSort_map (eager : Bool) {sort : List β → List β} {sort' : List α → List α}
    (hsort : ∀ items, sort (items.map f) = (sort' items).map f) (items : List α) :
    runSort less eager sort (items.map f) =
      (runSort (onFun less f) eager sort' items).map f := by
  simp only [runSort, List.length_map, Cut.runs_map]
  cases Cut.runs ⟨goodRunLength items.length, eager⟩ (onFun less f) items.length items with
  | nil => rfl
  | cons run rest =>
    have hjoined := joinAll_map f (Run.join_map less f hsort)
      (((1 <<< 62) + items.length - 1) / items.length) run.items.length run [] rest
    simp only [List.map_cons]
    rw [← Run.settled_map f hsort, ← hjoined]
    simp only [Run.map, List.length_map, List.map_nil]

private theorem longSort_map (items : List α) :
    longSort less (items.map f) = (longSort (onFun less f) items).map f := by
  have hruns := runSort_map less f true fun items =>
    (rfl : id (items.map f) = (id items).map f)
  have hsplit := splitSort_map less f hruns (2 * items.length.log2) none items
  rw [longSort, longSort, List.length_map]
  exact hsplit

theorem sort_map (items : List α) :
    sort less (items.map f) = (sort (onFun less f) items).map f := by
  simp only [sort, List.length_map]
  split
  · exact insertionSort_map less f items
  · exact runSort_map less f _ (longSort_map less f) items

end GraphPath.Sorting
