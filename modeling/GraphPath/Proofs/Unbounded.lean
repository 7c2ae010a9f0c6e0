import GraphPath.Proofs.Rows
import GraphPath.Store.Eval

/-!
# Evaluation without a cap

The rows that a group has from one seed, and the value of an expression in a row, when no number of
rows is too large. The peak of an evaluation is the largest number of rows that any of its steps
holds, those in nested groups, join conditions, bindings and scopes included. Evaluation under a cap
gives exactly these rows if the peak is within the cap, and fails for the number of rows otherwise;
so what a group matches is a question about these rows alone.
-/

namespace GraphPath

mutual

/-- The value of an expression in a row. -/
def Expr.value? (D : List Quad) : Expr → Row → Option Node
  | .always, _ => ofTruth (some true)
  | .term t, row => t.value? row
  | .not e, row => ofTruth ((truth? (Expr.value? D e row)).map not)
  | .and left right, row =>
    ofTruth (bothTrue (truth? (Expr.value? D left row)) (truth? (Expr.value? D right row)))
  | .or left right, row =>
    ofTruth (someTrue (truth? (Expr.value? D left row)) (truth? (Expr.value? D right row)))
  | .compare op left right, row =>
    ofTruth do
      let l ← Expr.value? D left row
      let r ← Expr.value? D right row
      op.apply l r
  | .exist scope, row =>
    ofTruth (some !((Element.steps D scope row).filter (Element.holdAll D scope)).isEmpty)
  | .coalesce args, row => Expr.firstValue? D args row
  | .call f args, row => (Expr.values? D args row).bind f.apply
termination_by structural e => e

def Expr.firstValue? (D : List Quad) : List Expr → Row → Option Node
  | [], _ => none
  | e :: rest, row => (Expr.value? D e row).or (Expr.firstValue? D rest row)
termination_by structural args => args

def Expr.values? (D : List Quad) : List Expr → Row → Option (List Node)
  | [], _ => some []
  | e :: rest, row =>
    (Expr.value? D e row).bind fun value => (Expr.values? D rest row).map (value :: ·)
termination_by structural args => args

/-- The rows to which an element takes a row. -/
def Element.step (D : List Quad) : Element → Row → List Row
  | .triple t, row => D.filterMap (t.unify row)
  | .group inner, row =>
    ((Element.steps D inner .empty).filter (Element.holdAll D inner)).filterMap row.meet?
  | .union branches, row => (Element.branchSteps D branches).filterMap row.meet?
  | .optional inner, row =>
    let merged := ((Element.steps D inner .empty).filterMap row.meet?).filter
      (Element.holdAll D inner)
    if merged.isEmpty then [row] else merged
  | .filter _, row => [row]
  | .bind e target, row =>
    if (row.value? target).isSome then [row]
    else
      match Expr.value? D e row with
      | some value => [row.bind target value]
      | none => [row]
termination_by structural e => e

/-- The rows to which the elements of a group take a row, before the filters. -/
def Element.steps (D : List Quad) : List Element → Row → List Row
  | [], row => [row]
  | e :: rest, row => (Element.step D e row).flatMap fun next => Element.steps D rest next
termination_by structural g => g

def Element.branchSteps (D : List Quad) : List (List Element) → List Row
  | [] => []
  | g :: rest =>
    (Element.steps D g .empty).filter (Element.holdAll D g) ++ Element.branchSteps D rest
termination_by structural branches => branches

def Element.hold (D : List Quad) : Element → Row → Bool
  | .filter e, row => truth? (Expr.value? D e row) = some true
  | _, _ => true
termination_by structural e => e

/-- Whether a row passes the filters of a group. -/
def Element.holdAll (D : List Quad) : List Element → Row → Bool
  | [], _ => true
  | e :: rest, row => Element.hold D e row && Element.holdAll D rest row
termination_by structural g => g

end

/-- The rows of a group from one seed. -/
def Group.found (D : List Quad) (g : Group) (row : Row) : List Row :=
  (Element.steps D g row).filter (Element.holdAll D g)

/-- The largest of the numbers that rows have. -/
def Row.largest (size : Row → Nat) (rows : List Row) : Nat :=
  rows.foldr (fun row most => max (size row) most) 0

mutual

/-- The largest number of rows that a step holds while an expression is evaluated in a row. -/
def Expr.peak (D : List Quad) : Expr → Row → Nat
  | .always, _ => 0
  | .term _, _ => 0
  | .not e, row => Expr.peak D e row
  | .and left right, row => max (Expr.peak D left row) (Expr.peak D right row)
  | .or left right, row => max (Expr.peak D left row) (Expr.peak D right row)
  | .compare _ left right, row => max (Expr.peak D left row) (Expr.peak D right row)
  | .exist scope, row =>
    max (Element.peakAll D scope [row])
      (Row.largest (Element.checkAllPeak D scope) (Element.steps D scope row))
  | .coalesce args, row => Expr.firstPeak D args row
  | .call _ args, row => Expr.valuesPeak D args row
termination_by structural e => e

/-- The peak up to the first expression that has a value. -/
def Expr.firstPeak (D : List Quad) : List Expr → Row → Nat
  | [], _ => 0
  | e :: rest, row =>
    match Expr.value? D e row with
    | some _ => Expr.peak D e row
    | none => max (Expr.peak D e row) (Expr.firstPeak D rest row)
termination_by structural args => args

/-- The peak up to the first expression that has no value. -/
def Expr.valuesPeak (D : List Quad) : List Expr → Row → Nat
  | [], _ => 0
  | e :: rest, row =>
    match Expr.value? D e row with
    | some _ => max (Expr.peak D e row) (Expr.valuesPeak D rest row)
    | none => Expr.peak D e row
termination_by structural args => args

/-- The peak within an element that extends the given rows. -/
def Element.peak (D : List Quad) : Element → List Row → Nat
  | .triple _, _ => 0
  | .group inner, _ =>
    max (Element.peakAll D inner [.empty])
      (Row.largest (Element.checkAllPeak D inner) (Element.steps D inner .empty))
  | .union branches, _ => Element.branchPeak D branches
  | .optional inner, rows =>
    max (Element.peakAll D inner [.empty])
      (Row.largest (fun row => Row.largest (Element.checkAllPeak D inner)
        ((Element.steps D inner .empty).filterMap row.meet?)) rows)
  | .filter _, _ => 0
  | .bind e target, rows =>
    Row.largest (fun row => if (row.value? target).isSome then 0 else Expr.peak D e row) rows
termination_by structural e => e

/-- The peak of the elements of a group, with the rows after each of them. -/
def Element.peakAll (D : List Quad) : List Element → List Row → Nat
  | [], _ => 0
  | e :: rest, rows =>
    let extended := rows.flatMap (Element.step D e)
    max (Element.peak D e rows) (max extended.length (Element.peakAll D rest extended))
termination_by structural g => g

def Element.branchPeak (D : List Quad) : List (List Element) → Nat
  | [] => 0
  | g :: rest =>
    max (max (Element.peakAll D g [.empty])
        (Row.largest (Element.checkAllPeak D g) (Element.steps D g .empty)))
      (Element.branchPeak D rest)
termination_by structural branches => branches

def Element.checkPeak (D : List Quad) : Element → Row → Nat
  | .filter e, row => Expr.peak D e row
  | _, _ => 0
termination_by structural e => e

/-- The peak of the filters of a group up to the first that refuses the row. -/
def Element.checkAllPeak (D : List Quad) : List Element → Row → Nat
  | [], _ => 0
  | e :: rest, row =>
    if Element.hold D e row then
      max (Element.checkPeak D e row) (Element.checkAllPeak D rest row)
    else Element.checkPeak D e row
termination_by structural g => g

end

/-- The peak of a group that is evaluated from the given rows. -/
def Group.peak (D : List Quad) (g : Group) (seeds : List Row) : Nat :=
  max (Element.peakAll D g seeds)
    (Row.largest (Element.checkAllPeak D g) (seeds.flatMap (Element.steps D g)))

/-- A computation under a cap gives a value if the cap is not below a least one, and fails for the
number of rows otherwise. -/
def SettlesAt {α : Type} (least : Nat) (x : Nat → Except ExecutionError α) (value : α) : Prop :=
  ∀ cap, x cap = if least ≤ cap then .ok value else .error (.tooManyRows cap)

/-- A computation under a cap gives a value from some least cap on, and fails below it. -/
def Settles {α : Type} (x : Nat → Except ExecutionError α) (value : α) : Prop :=
  ∃ least, SettlesAt least x value

namespace SettlesAt

variable {α β : Type} {m n : Nat}

private theorem pure (value : α) : SettlesAt 0 (fun _ => .ok value) value := fun cap => by simp

private theorem bind {x : Nat → Except ExecutionError α} {f : Nat → α → Except ExecutionError β}
    {a : α} {b : β} (hx : SettlesAt m x a) (hf : SettlesAt n (fun cap => f cap a) b) :
    SettlesAt (max m n) (fun cap => x cap >>= f cap) b := by
  intro cap
  by_cases hmc : m ≤ cap
  · have hiff : max m n ≤ cap ↔ n ≤ cap := by omega
    simp only [hx cap, hmc, if_true, hiff]
    exact hf cap
  · have hnot : ¬ max m n ≤ cap := by omega
    simp only [hx cap, hmc, hnot, if_false]
    rfl

private theorem bind_ok {x : Nat → Except ExecutionError α} {f : Nat → α → Except ExecutionError β}
    {a : α} {b : β} (hx : SettlesAt m x a) (hf : ∀ cap, f cap a = .ok b) :
    SettlesAt m (fun cap => x cap >>= f cap) b := by
  have hpure : SettlesAt 0 (fun cap => f cap a) b := fun cap => by simp [hf]
  have h := hx.bind hpure
  rwa [Nat.max_zero] at h

theorem map {x : Nat → Except ExecutionError α} {a : α} (hx : SettlesAt m x a) (f : α → β) :
    SettlesAt m (fun cap => x cap >>= fun a => .ok (f a)) (f a) :=
  hx.bind_ok fun _ => rfl

private theorem guarded {f : Nat → Except ExecutionError α} {a : α} (size : Nat)
    (hf : SettlesAt n f a) :
    SettlesAt (max size n) (fun cap => if cap < size then .error (.tooManyRows cap) else f cap)
      a := by
  intro cap
  by_cases hsize : cap < size
  · have hnot : ¬ max size n ≤ cap := by omega
    simp [hsize, hnot]
  · have hiff : max size n ≤ cap ↔ n ≤ cap := by omega
    simp only [hsize, if_false, hiff]
    exact hf cap

private theorem collect {find : Nat → Row → Except ExecutionError (List Row)}
    {found : Row → List Row} {least : Row → Nat}
    (h : ∀ row, SettlesAt (least row) (fun cap => find cap row) (found row)) (rows : List Row) :
    SettlesAt (Row.largest least rows) (fun cap => Row.collect (find cap) rows)
      (rows.flatMap found) := by
  induction rows with
  | nil => exact .pure []
  | cons row rows ih =>
    simp only [Row.collect_cons, List.flatMap_cons, Row.largest, List.foldr_cons]
    exact (h row).bind (ih.map _)

private theorem keep {check : Nat → Row → Except ExecutionError Bool} {holds : Row → Bool}
    {least : Row → Nat} (h : ∀ row, SettlesAt (least row) (fun cap => check cap row) (holds row))
    (rows : List Row) :
    SettlesAt (Row.largest least rows) (fun cap => Row.keep (check cap) rows)
      (rows.filter holds) := by
  have hrows : rows.filter holds = rows.flatMap fun row => if holds row then [row] else [] := by
    induction rows with
    | nil => rfl
    | cons row rows ih => by_cases hrow : holds row <;> simp [hrow, ih]
  rw [hrows]
  exact collect (fun row => (h row).map _) rows

end SettlesAt

namespace Settles

variable {α : Type} {x : Nat → Except ExecutionError α} {a b : α}

theorem eq_of_ok {cap : Nat} (hx : Settles x a) (hok : x cap = .ok b) : b = a := by
  obtain ⟨n, hn⟩ := hx
  rw [hn] at hok
  split at hok
  · cases hok
    rfl
  · cases hok

theorem exists_ok (hx : Settles x a) : ∃ cap, x cap = .ok a := by
  obtain ⟨n, hn⟩ := hx
  exact ⟨n, (hn n).trans (if_pos (Nat.le_refl n))⟩

end Settles

mutual

theorem Expr.eval_settlesAt (D : List Quad) (e : Expr) (row : Row) :
    SettlesAt (Expr.peak D e row) (fun cap => Expr.eval ⟨D, cap⟩ e row) (Expr.value? D e row) := by
  cases e with
  | always => exact .pure _
  | term t => exact .pure _
  | not e =>
    simp only [Expr.eval, Expr.value?, Expr.peak]
    exact (Expr.eval_settlesAt D e row).map fun value => ofTruth ((truth? value).map not)
  | and left right =>
    simp only [Expr.eval, Expr.value?, Expr.peak]
    exact (Expr.eval_settlesAt D left row).bind ((Expr.eval_settlesAt D right row).map fun r =>
      ofTruth (bothTrue (truth? (Expr.value? D left row)) (truth? r)))
  | or left right =>
    simp only [Expr.eval, Expr.value?, Expr.peak]
    exact (Expr.eval_settlesAt D left row).bind ((Expr.eval_settlesAt D right row).map fun r =>
      ofTruth (someTrue (truth? (Expr.value? D left row)) (truth? r)))
  | compare op left right =>
    simp only [Expr.eval, Expr.value?, Expr.peak]
    exact (Expr.eval_settlesAt D left row).bind ((Expr.eval_settlesAt D right row).map _)
  | exist scope =>
    simp only [Expr.eval, Expr.value?, Expr.peak]
    have hsteps := Element.extendAll_settlesAt D scope [row]
    rw [List.flatMap_singleton] at hsteps
    exact hsteps.bind ((SettlesAt.keep (Element.passAll_settlesAt D scope) _).map fun kept =>
      ofTruth (some !kept.isEmpty))
  | coalesce args =>
    simp only [Expr.eval, Expr.value?, Expr.peak]
    exact Expr.firstValue_settlesAt D args row
  | call f args =>
    simp only [Expr.eval, Expr.value?, Expr.peak]
    exact (Expr.allValues_settlesAt D args row).map fun values? => values?.bind f.apply

private theorem Expr.firstValue_settlesAt (D : List Quad) (args : List Expr) (row : Row) :
    SettlesAt (Expr.firstPeak D args row) (fun cap => Expr.firstValue ⟨D, cap⟩ args row)
      (Expr.firstValue? D args row) := by
  cases args with
  | nil => exact .pure _
  | cons e rest =>
    have hhead := Expr.eval_settlesAt D e row
    simp only [Expr.firstValue, Expr.firstValue?, Expr.firstPeak]
    cases hvalue : Expr.value? D e row with
    | some value =>
      rw [hvalue] at hhead
      exact hhead.bind_ok fun _ => rfl
    | none =>
      rw [hvalue] at hhead
      exact hhead.bind (Expr.firstValue_settlesAt D rest row)

private theorem Expr.allValues_settlesAt (D : List Quad) (args : List Expr) (row : Row) :
    SettlesAt (Expr.valuesPeak D args row) (fun cap => Expr.allValues ⟨D, cap⟩ args row)
      (Expr.values? D args row) := by
  cases args with
  | nil => exact .pure _
  | cons e rest =>
    have hhead := Expr.eval_settlesAt D e row
    simp only [Expr.allValues, Expr.values?, Expr.valuesPeak]
    cases hvalue : Expr.value? D e row with
    | none =>
      rw [hvalue] at hhead
      exact hhead.bind_ok fun _ => rfl
    | some value =>
      rw [hvalue] at hhead
      exact hhead.bind ((Expr.allValues_settlesAt D rest row).map fun values? =>
        values?.map (value :: ·))

private theorem Element.extend_settlesAt (D : List Quad) (e : Element) (rows : List Row) :
    SettlesAt (Element.peak D e rows) (fun cap => Element.extend ⟨D, cap⟩ e rows)
      (rows.flatMap (Element.step D e)) := by
  cases e with
  | triple t =>
    simp only [Element.extend, Element.peak]
    exact .pure _
  | group inner =>
    simp only [Element.extend, Element.peak, Row.join_eq]
    have hsteps := Element.extendAll_settlesAt D inner [.empty]
    rw [List.flatMap_singleton] at hsteps
    exact hsteps.bind ((SettlesAt.keep (Element.passAll_settlesAt D inner) _).map fun kept =>
      rows.flatMap fun row => kept.filterMap row.meet?)
  | union branches =>
    simp only [Element.extend, Element.peak, Row.join_eq]
    exact (Element.branchRows_settlesAt D branches).map fun found =>
      rows.flatMap fun row => found.filterMap row.meet?
  | optional inner =>
    simp only [Element.extend, Element.peak]
    have hsteps := Element.extendAll_settlesAt D inner [.empty]
    rw [List.flatMap_singleton] at hsteps
    refine hsteps.bind (SettlesAt.collect (fun row => ?_) rows)
    simp only [Row.map_filter_agrees, Element.step]
    exact (SettlesAt.keep (Element.passAll_settlesAt D inner) _).map fun merged =>
      if merged.isEmpty then [row] else merged
  | filter e =>
    have hrows : rows.flatMap (Element.step D (.filter e)) = rows := by
      simp [Element.step]
    rw [hrows]
    exact .pure _
  | bind e target =>
    simp only [Element.extend, Element.peak]
    refine SettlesAt.collect (fun row => ?_) rows
    simp only [Element.step]
    by_cases hbound : (row.value? target).isSome
    · simp only [hbound, if_true]
      exact .pure _
    · simp only [hbound]
      refine (Expr.eval_settlesAt D e row).bind_ok fun _ => ?_
      cases Expr.value? D e row <;> rfl

private theorem Element.extendAll_settlesAt (D : List Quad) (g : List Element) (rows : List Row) :
    SettlesAt (Element.peakAll D g rows) (fun cap => Element.extendAll ⟨D, cap⟩ g rows)
      (rows.flatMap (Element.steps D g)) := by
  cases g with
  | nil =>
    have hrows : rows.flatMap (Element.steps D []) = rows := by
      simp [Element.steps]
    rw [hrows]
    exact .pure _
  | cons e rest =>
    have hrows : rows.flatMap (Element.steps D (e :: rest)) =
        (rows.flatMap (Element.step D e)).flatMap (Element.steps D rest) := by
      simp [Element.steps, List.flatMap_assoc]
    rw [hrows]
    simp only [Element.extendAll, Element.peakAll]
    exact (Element.extend_settlesAt D e rows).bind
      (.guarded _ (Element.extendAll_settlesAt D rest _))

private theorem Element.branchRows_settlesAt (D : List Quad) (branches : List (List Element)) :
    SettlesAt (Element.branchPeak D branches) (fun cap => Element.branchRows ⟨D, cap⟩ branches)
      (Element.branchSteps D branches) := by
  cases branches with
  | nil => exact .pure _
  | cons g rest =>
    simp only [Element.branchRows, Element.branchSteps, Element.branchPeak, Nat.max_assoc]
    have hsteps := Element.extendAll_settlesAt D g [.empty]
    rw [List.flatMap_singleton] at hsteps
    exact hsteps.bind ((SettlesAt.keep (Element.passAll_settlesAt D g) _).bind
      ((Element.branchRows_settlesAt D rest).map fun others => _ ++ others))

private theorem Element.pass_settlesAt (D : List Quad) (e : Element) (row : Row) :
    SettlesAt (Element.checkPeak D e row) (fun cap => Element.pass ⟨D, cap⟩ e row)
      (Element.hold D e row) := by
  cases e with
  | filter e =>
    simp only [Element.pass, Element.hold, Element.checkPeak]
    exact (Expr.eval_settlesAt D e row).map fun value => decide (truth? value = some true)
  | _ =>
    simp only [Element.pass, Element.hold, Element.checkPeak]
    exact .pure _

private theorem Element.passAll_settlesAt (D : List Quad) (g : List Element) (row : Row) :
    SettlesAt (Element.checkAllPeak D g row) (fun cap => Element.passAll ⟨D, cap⟩ g row)
      (Element.holdAll D g row) := by
  cases g with
  | nil => exact .pure _
  | cons e rest =>
    have hhead := Element.pass_settlesAt D e row
    simp only [Element.passAll, Element.holdAll, Element.checkAllPeak]
    cases hhold : Element.hold D e row with
    | true =>
      rw [hhold] at hhead
      exact hhead.bind (Element.passAll_settlesAt D rest row)
    | false =>
      rw [hhold] at hhead
      exact hhead.bind_ok fun _ => rfl

end

/-- The rows of a group under a cap. -/
theorem Group.rows_settlesAt (D : List Quad) (g : Group) (seeds : List Row) :
    SettlesAt (Group.peak D g seeds) (fun cap => Group.rows ⟨D, cap⟩ g seeds)
      (seeds.flatMap (Group.found D g)) := by
  have hrows : seeds.flatMap (Group.found D g) =
      (seeds.flatMap (Element.steps D g)).filter (Element.holdAll D g) := by
    rw [List.filter_flatMap]
    rfl
  rw [hrows]
  exact (Element.extendAll_settlesAt D g seeds).bind
    (SettlesAt.keep (Element.passAll_settlesAt D g) _)

theorem Group.rows_settles (D : List Quad) (g : Group) (seeds : List Row) :
    Settles (fun cap => Group.rows ⟨D, cap⟩ g seeds) (seeds.flatMap (Group.found D g)) :=
  ⟨_, Group.rows_settlesAt D g seeds⟩

theorem Group.rows_eq_found {s : Snapshot} {g : Group} {seed : Row} {rows : List Row}
    (h : Group.rows s g [seed] = .ok rows) : rows = Group.found s.quads g seed := by
  have hsettles := Group.rows_settles s.quads g [seed]
  rw [List.flatMap_singleton] at hsettles
  exact hsettles.eq_of_ok h

end GraphPath
