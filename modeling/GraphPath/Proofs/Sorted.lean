import GraphPath.Sorting.Perm
import Mathlib.Data.List.Basic

/-!
# Sorting sorts

If a relation orders items lawfully, the sorted list is in order: no item comes before one that
stands earlier in it. Every method has its own lemma; a run that is left for later counts as good if
the method that it is left to sorts everything.
-/

namespace GraphPath.Sorting

variable {α : Type} {less : α → α → Bool}

/-- No two items come before each other, and not to come before an item is transitive. -/
structure Lawful (less : α → α → Bool) : Prop where
  asymm : ∀ {a b}, less a b = true → less b a = false
  trans : ∀ {a b c}, less b a = false → less c b = false → less c a = false

/-- No item comes before an earlier one. -/
def Ordered (less : α → α → Bool) (items : List α) : Prop :=
  items.Pairwise fun a b => less b a = false

private theorem Lawful.irrefl (h : Lawful less) (a : α) : less a a = false := by
  rw [← Bool.not_eq_true]
  intro ha
  cases ha.symm.trans (h.asymm ha)

/-! ## Short lists -/

/-- The items are listed from the last to the first. -/
theorem pairwise_settle (h : Lawful less) (item : α) {sorted : List α}
    (hsorted : sorted.Pairwise fun a b => less a b = false) :
    (settle less item sorted).Pairwise fun a b => less a b = false := by
  induction sorted with
  | nil => exact List.pairwise_singleton _ item
  | cons last earlier ih =>
    obtain ⟨hlast, hearlier⟩ := List.pairwise_cons.1 hsorted
    rw [settle]
    split
    · next hless =>
      refine List.pairwise_cons.2 ⟨fun a ha => ?_, ih hearlier⟩
      rcases List.mem_cons.1 ((settle_perm less item earlier).mem_iff.1 ha) with rfl | ha
      · exact h.asymm hless
      · exact hlast a ha
    · next hless =>
      have hitem : less item last = false := by simpa using hless
      refine List.pairwise_cons.2 ⟨fun a ha => ?_, hsorted⟩
      rcases List.mem_cons.1 ha with rfl | ha
      · exact hitem
      · exact h.trans (hlast a ha) hitem

private theorem ordered_settleAll (h : Lawful less) {sorted : List α}
    (hsorted : Ordered less sorted) (items : List α) :
    Ordered less (settleAll less sorted items) := by
  have hfold (start : List α) (hstart : start.Pairwise fun a b => less a b = false) :
      (items.foldl (fun sorted item => settle less item sorted) start).Pairwise
        fun a b => less a b = false := by
    induction items generalizing start with
    | nil => exact hstart
    | cons item items ih => exact ih _ (pairwise_settle h item hstart)
  exact List.pairwise_reverse.2 (hfold _ (List.pairwise_reverse.2 hsorted))

private theorem ordered_insertionSort (h : Lawful less) (items : List α) :
    Ordered less (insertionSort less items) :=
  ordered_settleAll h List.Pairwise.nil items

private theorem pairwise_merge {R : α → α → Prop} (trans : ∀ a b c, R a b → R b c → R a c)
    {left right : List α} {first : α → α → Bool} (hfirst : ∀ a b, first a b = true → R a b)
    (hsecond : ∀ a b, first a b = false → R b a) (hleft : left.Pairwise R)
    (hright : right.Pairwise R) : (left.merge right first).Pairwise R := by
  induction left generalizing right with
  | nil => rwa [List.nil_merge]
  | cons a left ihl =>
    induction right with
    | nil => rwa [List.merge_right]
    | cons b right ihr =>
      obtain ⟨ha, hleft'⟩ := List.pairwise_cons.1 hleft
      obtain ⟨hb, hright'⟩ := List.pairwise_cons.1 hright
      rw [List.cons_merge_cons]
      split
      · next hab =>
        refine List.pairwise_cons.2 ⟨fun x hx => ?_, ihl hleft' hright⟩
        rcases List.mem_append.1 ((List.merge_perm_append first).mem_iff.1 hx) with hx | hx
        · exact ha x hx
        · rcases List.mem_cons.1 hx with rfl | hx
          · exact hfirst a x hab
          · exact trans a b x (hfirst a b hab) (hb x hx)
      · next hab =>
        have hba : R b a := hsecond a b (by simpa using hab)
        refine List.pairwise_cons.2 ⟨fun x hx => ?_, ihr hright'⟩
        rcases List.mem_append.1 ((List.merge_perm_append first).mem_iff.1 hx) with hx | hx
        · rcases List.mem_cons.1 hx with rfl | hx
          · exact hba
          · exact trans b a x hba (ha x hx)
        · exact hb x hx

variable {left right : List α}

private theorem ordered_mergeFront (h : Lawful less) (hleft : Ordered less left)
    (hright : Ordered less right) : Ordered less (mergeFront less left right) := by
  refine pairwise_merge (R := fun a b => less b a = false) (fun _ _ _ => h.trans)
    (fun a b hab => ?_) (fun a b hab => ?_) hleft hright
  · simpa using hab
  · exact h.asymm (by simpa using hab)

private theorem ordered_mergeBack (h : Lawful less) (hleft : Ordered less left)
    (hright : Ordered less right) : Ordered less (mergeBack less left right) := by
  refine List.pairwise_reverse.2 (pairwise_merge (R := fun a b => less a b = false)
    (fun _ _ _ hab hbc => h.trans hbc hab) (fun a b hab => h.asymm hab) (fun a b hab => hab) ?_ ?_)
  · exact List.pairwise_reverse.2 hleft
  · exact List.pairwise_reverse.2 hright

private theorem ordered_merge (h : Lawful less) (hleft : Ordered less left)
    (hright : Ordered less right) :
    Ordered less (merge less left right) := by
  rw [merge]
  split
  · exact ordered_mergeFront h hleft hright
  · exact ordered_mergeBack h hleft hright

private theorem ordered_mergeBothEnds (h : Lawful less) (n : Nat) {left right : List α}
    (hleft : Ordered less left) (hright : Ordered less right) :
    Ordered less (mergeBothEnds less n left right) := by
  induction n generalizing left right with
  | zero => exact ordered_mergeBack h hleft hright
  | succ n ih =>
    cases left with
    | nil => simpa [mergeBothEnds] using hright
    | cons a left =>
      cases right with
      | nil => simpa [mergeBothEnds] using hleft
      | cons b right =>
        obtain ⟨ha, hleft'⟩ := List.pairwise_cons.1 hleft
        obtain ⟨hb, hright'⟩ := List.pairwise_cons.1 hright
        rw [mergeBothEnds]
        split
        · next hless =>
          have hba : less a b = false := h.asymm hless
          refine List.pairwise_cons.2 ⟨fun x hx => ?_, ih hleft hright'⟩
          rcases List.mem_append.1 ((mergeBothEnds_perm less n _ _).mem_iff.1 hx) with hx | hx
          · rcases List.mem_cons.1 hx with rfl | hx
            · exact hba
            · exact h.trans hba (ha x hx)
          · exact hb x hx
        · next hless =>
          have hab : less b a = false := by simpa using hless
          refine List.pairwise_cons.2 ⟨fun x hx => ?_, ih hleft' hright⟩
          rcases List.mem_append.1 ((mergeBothEnds_perm less n _ _).mem_iff.1 hx) with hx | hx
          · exact ha x hx
          · rcases List.mem_cons.1 hx with rfl | hx
            · exact hab
            · exact h.trans hab (hb x hx)

private theorem ordered_sortFour (h : Lawful less) (w x y z : α) :
    Ordered less (sortFour less w x y z) := by
  obtain ⟨hasymm, htrans⟩ := h
  simp only [sortFour, Ordered]
  repeat' split
  all_goals
    simp only [List.pairwise_cons, List.mem_cons, List.not_mem_nil, or_false, forall_eq_or_imp,
      forall_eq]
    grind

private theorem ordered_sortHalf (h : Lawful less) (items : List α) :
    Ordered less (sortHalf less items) := by
  unfold sortHalf
  split
  · exact ordered_settleAll h (ordered_sortFour h _ _ _ _) _
  · exact ordered_insertionSort h items

private theorem ordered_shortSort (h : Lawful less) (items : List α) :
    Ordered less (shortSort less items) := by
  have hhalf (part : List α) :
      Ordered less ((if items.length < 8 then insertionSort less else sortHalf less) part) := by
    split
    · exact ordered_insertionSort h part
    · exact ordered_sortHalf h part
  exact ordered_mergeBothEnds h _ (hhalf _) (hhalf _)

/-! ## Splitting around an item -/

private theorem mem_splitAround_left {goesLeft : α → Bool} {before after : List α} {pivot item : α}
    {b : Bool} (hitem : item ∈ (splitAround goesLeft before pivot b after).1) :
    item ∈ before ++ pivot :: after ∧ (goesLeft item = true ∨ item = pivot ∧ b = true) := by
  cases b <;>
    simp only [splitAround, List.mem_append, List.mem_filter, List.mem_cons] at hitem ⊢ <;>
    grind

private theorem mem_splitAround_right {goesLeft : α → Bool} {before after : List α} {pivot item : α}
    {b : Bool} (hitem : item ∈ (splitAround goesLeft before pivot b after).2) :
    item ∈ before ++ pivot :: after ∧ (goesLeft item = false ∨ item = pivot ∧ b = false) := by
  cases b <;>
    simp only [splitAround, List.mem_append, List.mem_filter, List.mem_cons] at hitem ⊢ <;>
    grind

private theorem splitAround_below (h : Lawful less) {before after : List α} {pivot a : α}
    (ha : a ∈ (splitAround (less · pivot) before pivot false after).1) : less pivot a = false := by
  cases (mem_splitAround_left ha).2 with
  | inl hless => exact h.asymm hless
  | inr hpivot => cases hpivot.2

private theorem splitAround_above (h : Lawful less) {before after : List α} {pivot b : α}
    (hb : b ∈ (splitAround (less · pivot) before pivot false after).2) : less b pivot = false := by
  cases (mem_splitAround_right hb).2 with
  | inl hless => exact hless
  | inr hpivot =>
    rw [hpivot.1]
    exact h.irrefl pivot

private theorem splitAround_least (h : Lawful less) {before after : List α} {pivot item : α}
    (hitem : item ∈ (splitAround (fun item => !less pivot item) before pivot true after).1) :
    less pivot item = false := by
  cases (mem_splitAround_left hitem).2 with
  | inl hless => simpa using hless
  | inr hpivot =>
    rw [hpivot.1]
    exact h.irrefl pivot

private theorem ordered_append (h : Lawful less) {pivot : α} (hleft : Ordered less left)
    (hright : Ordered less right) (hbelow : ∀ a ∈ left, less pivot a = false)
    (habove : ∀ b ∈ right, less b pivot = false) : Ordered less (left ++ right) :=
  List.pairwise_append.2 ⟨hleft, hright, fun a ha b hb => h.trans (hbelow a ha) (habove b hb)⟩

private theorem pivot_least (h : Lawful less) {floor : Option α} {before after : List α} {pivot : α}
    (hfloor : ∀ low ∈ floor, ∀ item ∈ before ++ pivot :: after, less item low = false)
    (hleast : (floor.any (fun low => !less low pivot) ||
      (splitAround (less · pivot) before pivot false after).1.isEmpty) = true) :
    ∀ item ∈ before ++ pivot :: after, less item pivot = false := by
  intro item hitem
  rcases Bool.or_eq_true_iff.1 hleast with hlow | hnone
  · cases floor with
    | none => cases hlow
    | some low =>
      have hpivot : less low pivot = false := by simpa using hlow
      exact h.trans hpivot (hfloor low rfl item hitem)
  · simp only [splitAround, List.isEmpty_iff, List.append_eq_nil_iff, List.filter_eq_nil_iff,
      Bool.not_eq_true] at hnone
    rcases List.mem_append.1 hitem with hitem | hitem
    · exact hnone.1.1 item hitem
    · rcases List.mem_cons.1 hitem with rfl | hitem
      · exact h.irrefl item
      · exact hnone.2 item hitem

/-- The list stands on the right of the floor: none of its items comes before it. -/
theorem ordered_splitSort (h : Lawful less) {other : List α → List α}
    (hperm : ∀ items, (other items).Perm items) (hother : ∀ items, Ordered less (other items))
    (n : Nat) (floor : Option α) (items : List α)
    (hfloor : ∀ low ∈ floor, ∀ item ∈ items, less item low = false) :
    Ordered less (splitSort less other n floor items) := by
  induction n generalizing floor items with
  | zero =>
    rw [splitSort]
    split
    · exact ordered_shortSort h items
    · exact hother items
  | succ n ih =>
    rw [splitSort]
    split
    · exact ordered_shortSort h items
    · simp only []
      split
      · exact hother items
      · next pivot after hdrop =>
        have hitems : items.take (pivotPlace less items) ++ pivot :: after = items := by
          rw [← hdrop, List.take_append_drop]
        have hmem (n : Nat) (floor : Option α) (part : List α) (item : α) :
            item ∈ splitSort less other n floor part ↔ item ∈ part :=
          (splitSort_perm less other hperm n floor part).mem_iff
        rw [← hitems] at hfloor
        split
        · next hleast =>
          have hlow := pivot_least h hfloor hleast
          -- What does not come after the least item ties with it.
          refine ordered_append h ?_ (ih none _ (by simp)) (fun a ha => splitAround_least h ha)
            fun b hb => ?_
          · exact List.pairwise_of_forall_mem_list fun a ha b hb =>
              h.trans (splitAround_least h ha) (hlow b (mem_splitAround_left hb).1)
          · exact hlow b (mem_splitAround_right ((hmem _ _ _ b).1 hb)).1
        · refine ordered_append h (ih floor _ fun low hlow a ha => ?_) (ih (some pivot) _ ?_)
            (fun a ha => splitAround_below h ((hmem _ _ _ a).1 ha))
            fun b hb => splitAround_above h ((hmem _ _ _ b).1 hb)
          · exact hfloor low hlow a (mem_splitAround_left ha).1
          · rintro low ⟨⟩ b hb
            exact splitAround_above h hb

/-! ## Runs -/

private theorem chainLength_pos (related : α → α → Bool) {items : List α} (h : items ≠ []) :
    0 < chainLength related items := by
  unfold chainLength
  split
  · split <;> omega
  · exact List.length_pos_iff.2 h

private theorem pairwise_take_chainLength {R : α → α → Prop} {related : α → α → Bool}
    (trans : ∀ a b c, R a b → R b c → R a c) (hrelated : ∀ a b, related a b = true → R a b)
    (items : List α) : (items.take (chainLength related items)).Pairwise R := by
  induction items with
  | nil => exact List.Pairwise.nil
  | cons a rest ih =>
    cases rest with
    | nil => exact List.pairwise_singleton R a
    | cons b rest =>
      rw [chainLength]
      split
      · next hab =>
        have hpos := chainLength_pos related (List.cons_ne_nil b rest)
        obtain ⟨n, hn⟩ := Nat.exists_eq_add_one.2 hpos
        rw [hn, List.take_succ_cons] at ih
        rw [hn, List.take_succ_cons, List.take_succ_cons]
        refine List.pairwise_cons.2 ⟨fun x hx => ?_, ih⟩
        rcases List.mem_cons.1 hx with rfl | hx
        · exact hrelated a x hab
        · exact trans a b x (hrelated a b hab) ((List.pairwise_cons.1 ih).1 x hx)
      · exact List.pairwise_singleton R a

/-- The run is sorted, or left to a method that sorts. -/
structure Run.Good (less : α → α → Bool) (sort : List α → List α) (run : Run α) : Prop where
  ordered : run.sorted = true → Ordered less run.items
  later : run.sorted = false → ∀ items, Ordered less (sort items)

section Runs

variable {sort : List α → List α} {run : Run α}

private theorem Run.Good.settled (h : run.Good less sort) : Ordered less (run.settled sort) := by
  unfold Run.settled
  split
  · next hsorted => exact h.ordered hsorted
  · next hsorted => exact h.later (by simpa using hsorted) run.items

private theorem Run.Good.join (h : Lawful less) {left right : Run α} (hleft : left.Good less sort)
    (hright : right.Good less sort) : (Run.join less sort left right).Good less sort := by
  unfold Run.join
  split
  · exact ⟨fun _ => ordered_merge h hleft.settled hright.settled, nofun⟩
  · next hsorted =>
    have hboth := Bool.or_eq_false_iff.1 (by simpa using hsorted)
    exact ⟨nofun, fun _ => hleft.later hboth.1⟩

private theorem Cut.good_front (h : Lawful less) (cut : Cut) (items : List α)
    (hlater : cut.eager = false → ∀ items, Ordered less (sort items)) :
    (cut.front less items).1.Good less sort := by
  unfold Cut.front
  simp only []
  split
  · refine ⟨fun _ => ?_, nofun⟩
    split
    · next hfalls =>
      refine List.pairwise_reverse.2 (pairwise_take_chainLength (R := fun a b => less a b = false)
        (fun _ _ _ hab hbc => h.trans hbc hab) (fun a b hab => ?_) items)
      exact h.asymm (by simpa [hfalls] using hab)
    · next hfalls =>
      refine pairwise_take_chainLength (R := fun a b => less b a = false) (fun _ _ _ => h.trans)
        (fun a b hab => ?_) items
      simpa [hfalls] using hab
  · split
    · exact ⟨fun _ => ordered_shortSort h _, nofun⟩
    · next heager => exact ⟨nofun, fun _ => hlater (by simpa using heager)⟩

private theorem Cut.length_front (cut : Cut) {items : List α} (hitems : items ≠ []) :
    (cut.front less items).2.length < items.length := by
  have hpos := List.length_pos_iff.2 hitems
  have hchain := chainLength_pos (fun a b => less b a == falls less items) hitems
  unfold Cut.front
  simp only []
  split
  · simp only [List.length_drop]
    omega
  · split
    · simp only [List.length_drop, shortLength]
      omega
    · simp only [List.length_drop]
      omega

private theorem Cut.good_runs (h : Lawful less) (cut : Cut)
    (hlater : cut.eager = false → ∀ items, Ordered less (sort items)) (n : Nat) (items : List α)
    (hn : items.length ≤ n) : ∀ run ∈ cut.runs less n items, run.Good less sort := by
  induction n generalizing items with
  | zero =>
    obtain rfl := List.length_eq_zero_iff.1 (Nat.le_zero.1 hn)
    simp [Cut.runs]
  | succ n ih =>
    cases items with
    | nil => simp [Cut.runs]
    | cons item items =>
      have hshorter : (cut.front less (item :: items)).2.length < (item :: items).length :=
        cut.length_front (List.cons_ne_nil item items)
      have hrest := ih (cut.front less (item :: items)).2 (by omega)
      exact List.forall_mem_cons.2 ⟨cut.good_front h _ hlater, hrest⟩

private theorem good_joinBack {join : Run α → Run α → Run α}
    (hjoin : ∀ left right, left.Good less sort → right.Good less sort →
      (join left right).Good less sort)
    (depth : Nat) {run : Run α} {earlier : List (Run α × Nat)} (hrun : run.Good less sort)
    (hearlier : ∀ entry ∈ earlier, entry.1.Good less sort) :
    (joinBack join depth run earlier).1.Good less sort ∧
      ∀ entry ∈ (joinBack join depth run earlier).2, entry.1.Good less sort := by
  induction earlier generalizing run with
  | nil => exact ⟨hrun, hearlier⟩
  | cons entry earlier ih =>
    obtain ⟨hentry, hrest⟩ := List.forall_mem_cons.1 hearlier
    rw [joinBack]
    split
    · exact ih (hjoin _ _ hentry hrun) hrest
    · exact ⟨hrun, hearlier⟩

private theorem good_joinAll {join : Run α → Run α → Run α}
    (hjoin : ∀ left right, left.Good less sort → right.Good less sort →
      (join left right).Good less sort)
    (scale place : Nat) {run : Run α} {earlier : List (Run α × Nat)} {rest : List (Run α)}
    (hrun : run.Good less sort) (hearlier : ∀ entry ∈ earlier, entry.1.Good less sort)
    (hrest : ∀ run ∈ rest, run.Good less sort) :
    (joinAll join scale place run earlier rest).Good less sort := by
  induction rest generalizing place run earlier with
  | nil => exact (good_joinBack hjoin 0 hrun hearlier).1
  | cons next rest ih =>
    obtain ⟨hnext, hrest⟩ := List.forall_mem_cons.1 hrest
    rw [joinAll]
    obtain ⟨hjoined, hleft⟩ := good_joinBack hjoin (joinDepth scale (place - run.items.length) place
      (place + next.items.length)) hrun hearlier
    exact ih _ hnext (List.forall_mem_cons.2 ⟨hjoined, hleft⟩) hrest

private theorem ordered_runSort (h : Lawful less) (eager : Bool)
    (hlater : eager = false → ∀ items, Ordered less (sort items)) (items : List α) :
    Ordered less (runSort less eager sort items) := by
  have hruns := Cut.good_runs h ⟨goodRunLength items.length, eager⟩ hlater items.length items
    (Nat.le_refl _)
  rw [runSort]
  simp only []
  split
  · exact List.Pairwise.nil
  · next run rest heq =>
    rw [heq] at hruns
    obtain ⟨hrun, hrest⟩ := List.forall_mem_cons.1 hruns
    exact (good_joinAll (fun _ _ => Run.Good.join h) _ _ hrun (by simp) hrest).settled

end Runs

private theorem ordered_longSort (h : Lawful less) (items : List α) :
    Ordered less (longSort less items) :=
  ordered_splitSort h (runSort_perm less true id fun _ => .refl _) (ordered_runSort h true nofun) _
    none items nofun

/-- A lawful relation orders the sorted list. -/
theorem ordered_sort (h : Lawful less) (items : List α) : Ordered less (sort less items) := by
  rw [sort]
  split
  · exact ordered_insertionSort h items
  · exact ordered_runSort h _ (fun _ => ordered_longSort h) items

end GraphPath.Sorting
