import GraphPath.Sorting.Runs

/-!
# Sorting keeps the items

Every method of sorting lists the items it is given, each as often as it was given.
-/

namespace GraphPath.Sorting

variable {α : Type} (less : α → α → Bool)

open List

theorem settle_perm (item : α) (sorted : List α) : settle less item sorted ~ item :: sorted := by
  induction sorted with
  | nil => exact .refl _
  | cons last earlier ih =>
    rw [settle]
    split
    · exact (ih.cons last).trans (.swap item last earlier)
    · exact .refl _

theorem settleAll_perm (sorted items : List α) : settleAll less sorted items ~ sorted ++ items := by
  have h (start : List α) :
      items.foldl (fun sorted item => settle less item sorted) start ~ start ++ items := by
    induction items generalizing start with
    | nil => simp
    | cons item items ih =>
      exact (ih _).trans (((settle_perm less item start).append_right items).trans
        perm_middle.symm)
  exact (reverse_perm _).trans ((h _).trans ((reverse_perm sorted).append_right items))

theorem insertionSort_perm (items : List α) : insertionSort less items ~ items :=
  settleAll_perm less [] items

theorem mergeFront_perm (left right : List α) : mergeFront less left right ~ left ++ right :=
  merge_perm_append _

theorem mergeBack_perm (left right : List α) : mergeBack less left right ~ left ++ right :=
  (reverse_perm _).trans ((merge_perm_append _).trans
    ((reverse_perm left).append (reverse_perm right)))

theorem merge_perm (left right : List α) : merge less left right ~ left ++ right := by
  rw [merge]
  split
  · exact mergeFront_perm less left right
  · exact mergeBack_perm less left right

theorem mergeBothEnds_perm (n : Nat) (left right : List α) :
    mergeBothEnds less n left right ~ left ++ right := by
  induction n generalizing left right with
  | zero => exact mergeBack_perm less left right
  | succ n ih =>
    cases left with
    | nil => simp [mergeBothEnds]
    | cons a left =>
      cases right with
      | nil => simp [mergeBothEnds]
      | cons b right =>
        rw [mergeBothEnds]
        split
        · exact ((ih (a :: left) right).cons b).trans perm_middle.symm
        · exact (ih left (b :: right)).cons a

theorem sortFour_perm (w x y z : α) : sortFour less w x y z ~ [w, x, y, z] := by
  classical
  rw [perm_iff_count]
  intro item
  simp only [sortFour]
  repeat' split
  all_goals
    simp only [count_cons, count_nil]
    try omega

theorem sortHalf_perm (items : List α) : sortHalf less items ~ items := by
  unfold sortHalf
  split
  · exact (settleAll_perm less _ _).trans ((sortFour_perm less _ _ _ _).append_right _)
  · exact insertionSort_perm less items

theorem shortSort_perm (items : List α) : shortSort less items ~ items := by
  have h (part : List α) :
      (if items.length < 8 then insertionSort less else sortHalf less) part ~ part := by
    split
    · exact insertionSort_perm less part
    · exact sortHalf_perm less part
  exact (mergeBothEnds_perm less _ _ _).trans (((h _).append (h _)).trans
    (.of_eq (take_append_drop _ items)))

theorem splitAround_perm (goesLeft : α → Bool) (before : List α) (pivot : α) (b : Bool)
    (after : List α) :
    (splitAround goesLeft before pivot b after).1 ++ (splitAround goesLeft before pivot b after).2 ~
      before ++ pivot :: after := by
  classical
  rw [perm_iff_count]
  intro item
  have hbefore := perm_iff_count.1 (filter_append_perm goesLeft before) item
  have hafter := perm_iff_count.1 (filter_append_perm goesLeft after) item
  simp only [count_append] at hbefore hafter
  cases b <;> simp only [splitAround, count_append, count_cons, count_nil, Bool.false_eq_true,
    if_true, if_false] <;> omega

theorem splitSort_perm (other : List α → List α) (hother : ∀ items, other items ~ items) (n : Nat)
    (floor : Option α) (items : List α) : splitSort less other n floor items ~ items := by
  induction n generalizing floor items with
  | zero =>
    rw [splitSort]
    split
    · exact shortSort_perm less items
    · exact hother items
  | succ n ih =>
    rw [splitSort]
    split
    · exact shortSort_perm less items
    · simp only []
      split
      · exact hother items
      · rename_i pivot after h
        have hitems : items.take (pivotPlace less items) ++ pivot :: after = items := by
          rw [← h, take_append_drop]
        split
        · exact ((ih _ _).append_left _).trans ((splitAround_perm _ _ _ _ _).trans (.of_eq hitems))
        · exact ((ih _ _).append (ih _ _)).trans
            ((splitAround_perm _ _ _ _ _).trans (.of_eq hitems))

theorem Cut.front_perm (cut : Cut) (items : List α) :
    (cut.front less items).1.items ++ (cut.front less items).2 ~ items := by
  have h (part : List α) (n : Nat) (hpart : part ~ items.take n) : part ++ items.drop n ~ items :=
    (hpart.append_right _).trans (.of_eq (take_append_drop n items))
  unfold Cut.front
  simp only []
  split
  · apply h
    split
    · exact reverse_perm _
    · exact .refl _
  · split
    · exact h _ _ (shortSort_perm less _)
    · exact h _ _ (.refl _)

/-- The items of runs, one run after the other. -/
def Run.allItems (runs : List (Run α)) : List α := runs.flatMap Run.items

theorem Cut.runs_perm (cut : Cut) (n : Nat) (items : List α) :
    Run.allItems (cut.runs less n items) ~ items := by
  induction n generalizing items with
  | zero => cases items <;> simp [Cut.runs, Run.allItems]
  | succ n ih =>
    cases items with
    | nil => simp [Cut.runs, Run.allItems]
    | cons item items =>
      exact ((ih _).append_left _).trans (cut.front_perm less (item :: items))

theorem Run.settled_perm (sort : List α → List α) (hsort : ∀ items, sort items ~ items)
    (run : Run α) : run.settled sort ~ run.items := by
  unfold Run.settled
  split
  · exact .refl _
  · exact hsort _

theorem Run.join_perm (sort : List α → List α) (hsort : ∀ items, sort items ~ items)
    (left right : Run α) : (Run.join less sort left right).items ~ left.items ++ right.items := by
  unfold Run.join
  split
  · exact (merge_perm less _ _).trans
      ((Run.settled_perm sort hsort left).append (Run.settled_perm sort hsort right))
  · exact .refl _

/-- The items of runs that are listed from the last to the first, with their depths. -/
def Run.earlierItems (earlier : List (Run α × Nat)) : List α :=
  earlier.flatMap fun entry => entry.1.items

theorem joinBack_perm (join : Run α → Run α → Run α)
    (hjoin : ∀ left right, (join left right).items ~ left.items ++ right.items) (depth : Nat)
    (run : Run α) (earlier : List (Run α × Nat)) :
    (joinBack join depth run earlier).1.items ++
        Run.earlierItems (joinBack join depth run earlier).2 ~
      run.items ++ Run.earlierItems earlier := by
  induction earlier generalizing run with
  | nil => exact .refl _
  | cons entry earlier ih =>
    rw [joinBack]
    split
    · refine (ih _).trans (((hjoin _ _).append_right _).trans ?_)
      simp only [Run.earlierItems, flatMap_cons, ← append_assoc]
      exact perm_append_comm.append_right _
    · exact .refl _

theorem joinBack_zero (join : Run α → Run α → Run α) (run : Run α)
    (earlier : List (Run α × Nat)) : (joinBack join 0 run earlier).2 = [] := by
  induction earlier generalizing run with
  | nil => rfl
  | cons entry earlier ih =>
    rw [joinBack, if_pos (Nat.zero_le _)]
    exact ih _

theorem joinAll_perm (join : Run α → Run α → Run α)
    (hjoin : ∀ left right, (join left right).items ~ left.items ++ right.items)
    (scale place : Nat) (run : Run α) (earlier : List (Run α × Nat)) (rest : List (Run α)) :
    (joinAll join scale place run earlier rest).items ~
      run.items ++ Run.earlierItems earlier ++ Run.allItems rest := by
  induction rest generalizing place run earlier with
  | nil =>
    have h := joinBack_perm join hjoin 0 run earlier
    rw [joinBack_zero] at h
    simpa [joinAll, Run.earlierItems, Run.allItems] using h
  | cons next rest ih =>
    rw [joinAll]
    refine (ih _ _ _).trans ?_
    have h := joinBack_perm join hjoin
      (joinDepth scale (place - run.items.length) place (place + next.items.length)) run earlier
    simp only [Run.earlierItems, Run.allItems, flatMap_cons, append_assoc] at h ⊢
    rw [← append_assoc _ _ (rest.flatMap Run.items), ← append_assoc run.items]
    refine Perm.trans ?_ (h.append_right _)
    simp only [← append_assoc]
    rw [append_assoc next.items]
    exact perm_append_comm.append_right _

theorem runSort_perm (eager : Bool) (sort : List α → List α) (hsort : ∀ items, sort items ~ items)
    (items : List α) : runSort less eager sort items ~ items := by
  have h := Cut.runs_perm less ⟨goodRunLength items.length, eager⟩ items.length items
  rw [runSort]
  simp only []
  split
  · rename_i hruns
    rw [hruns] at h
    exact h
  · rename_i run rest hruns
    rw [hruns] at h
    refine (Run.settled_perm sort hsort _).trans
      ((joinAll_perm _ (Run.join_perm less sort hsort) _ _ _ _ _).trans ?_)
    simpa [Run.earlierItems, Run.allItems] using h

theorem longSort_perm (items : List α) : longSort less items ~ items :=
  splitSort_perm less _ (runSort_perm less true id fun _ => .refl _) _ _ items

theorem sort_perm (items : List α) : sort less items ~ items := by
  rw [sort]
  split
  · exact insertionSort_perm less items
  · exact runSort_perm less _ _ (longSort_perm less) items

end GraphPath.Sorting
