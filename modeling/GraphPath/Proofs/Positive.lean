import GraphPath.Proofs.Verdicts

/-!
# Positive patterns

A pattern is positive if it asks for the presence of matches only: nothing in it is optional, no
scope is negated or compared, and what it binds is told by the row. Over more statements a positive
pattern keeps every row, and a positive condition that is true stays true.
-/

namespace GraphPath

mutual

/-- Whether the value of an expression is told by the row alone. -/
def Expr.isLocal : Expr → Bool
  | .always => true
  | .term _ => true
  | .not e => e.isLocal
  | .and left right => left.isLocal && right.isLocal
  | .or left right => left.isLocal && right.isLocal
  | .compare _ left right => left.isLocal && right.isLocal
  | .exist _ => false
  | .coalesce args => Expr.allLocal args
  | .call _ args => Expr.allLocal args

def Expr.allLocal : List Expr → Bool
  | [] => true
  | e :: rest => e.isLocal && Expr.allLocal rest

end

mutual

/-- Whether a condition asks for the presence of matches only. -/
def Expr.isPositive : Expr → Bool
  | .and left right => left.isPositive && right.isPositive
  | .or left right => left.isPositive && right.isPositive
  | .exist scope => Element.allPositive scope
  | .always => true
  | .term _ => true
  | .not e => e.isLocal
  | .compare _ left right => left.isLocal && right.isLocal
  | .coalesce args => Expr.allLocal args
  | .call _ args => Expr.allLocal args

def Element.isPositive : Element → Bool
  | .triple _ => true
  | .group inner => Element.allPositive inner
  | .union branches => Element.branchesPositive branches
  | .optional _ => false
  | .filter e => e.isPositive
  | .bind e _ => e.isLocal

def Element.allPositive : List Element → Bool
  | [] => true
  | e :: rest => e.isPositive && Element.allPositive rest

def Element.branchesPositive : List (List Element) → Bool
  | [] => true
  | g :: rest => Element.allPositive g && Element.branchesPositive rest

end

theorem Element.allPositive_append (g g' : Group) :
    Element.allPositive (g ++ g') = (Element.allPositive g && Element.allPositive g') := by
  induction g with
  | nil => simp [Element.allPositive]
  | cons e rest ih => simp [Element.allPositive, ih, Bool.and_assoc]

/-! ## More statements -/

private theorem Row.filter_subset {keep keep' : Row → Bool} {rows rows' : List Row}
    (h : rows ⊆ rows') (hkeep : ∀ row, keep row = true → keep' row = true) :
    rows.filter keep ⊆ rows'.filter keep' := by
  intro row hrow
  obtain ⟨hmem, hkept⟩ := List.mem_filter.1 hrow
  exact List.mem_filter.2 ⟨h hmem, hkeep row hkept⟩

section

variable {D D' : List Quad}

mutual

private theorem Expr.value?_of_isLocal (D D' : List Quad) (e : Expr) (he : e.isLocal = true)
    (row : Row) :
    Expr.value? D e row = Expr.value? D' e row := by
  cases e with
  | always => rfl
  | term t => rfl
  | not e => simp only [Expr.value?, Expr.value?_of_isLocal D D' e he row]
  | and left right =>
    obtain ⟨hleft, hright⟩ := Bool.and_eq_true_iff.1 he
    simp only [Expr.value?, Expr.value?_of_isLocal D D' left hleft row,
      Expr.value?_of_isLocal D D' right hright row]
  | or left right =>
    obtain ⟨hleft, hright⟩ := Bool.and_eq_true_iff.1 he
    simp only [Expr.value?, Expr.value?_of_isLocal D D' left hleft row,
      Expr.value?_of_isLocal D D' right hright row]
  | compare op left right =>
    obtain ⟨hleft, hright⟩ := Bool.and_eq_true_iff.1 he
    simp only [Expr.value?, Expr.value?_of_isLocal D D' left hleft row,
      Expr.value?_of_isLocal D D' right hright row]
  | exist scope => cases he
  | coalesce args => exact (Expr.values?_of_allLocal D D' args he row).1
  | call f args => simp only [Expr.value?, (Expr.values?_of_allLocal D D' args he row).2]

private theorem Expr.values?_of_allLocal (D D' : List Quad) (args : List Expr)
    (hargs : Expr.allLocal args = true) (row : Row) :
    Expr.firstValue? D args row = Expr.firstValue? D' args row ∧
      Expr.values? D args row = Expr.values? D' args row := by
  cases args with
  | nil => exact ⟨rfl, rfl⟩
  | cons e rest =>
    obtain ⟨he, hrest⟩ := Bool.and_eq_true_iff.1 hargs
    have hvalue := Expr.value?_of_isLocal D D' e he row
    obtain ⟨hfirst, hvalues⟩ := Expr.values?_of_allLocal D D' rest hrest row
    simp only [Expr.firstValue?, Expr.values?, hvalue, hfirst, hvalues, and_self]

end

mutual

private theorem Expr.truth?_of_subset (h : D ⊆ D') (e : Expr) (he : e.isPositive = true) {row : Row}
    (htrue : truth? (Expr.value? D e row) = some true) :
    truth? (Expr.value? D' e row) = some true := by
  cases e with
  | and left right =>
    obtain ⟨hleft, hright⟩ := Bool.and_eq_true_iff.1 he
    rw [Expr.value?, truth?_ofTruth, bothTrue_eq_true_iff] at htrue ⊢
    exact ⟨Expr.truth?_of_subset h left hleft htrue.1,
      Expr.truth?_of_subset h right hright htrue.2⟩
  | or left right =>
    obtain ⟨hleft, hright⟩ := Bool.and_eq_true_iff.1 he
    rw [Expr.value?, truth?_ofTruth, someTrue_eq_true_iff] at htrue ⊢
    exact htrue.imp (Expr.truth?_of_subset h left hleft) (Expr.truth?_of_subset h right hright)
  | exist scope =>
    rw [Expr.value?, truth?_ofTruth] at htrue ⊢
    simp only [Option.some.injEq, Bool.not_eq_true',
      List.isEmpty_eq_false_iff_exists_mem] at htrue ⊢
    obtain ⟨x, hx⟩ := htrue
    exact ⟨x, Row.filter_subset (Element.steps_subset h scope he)
      (fun _ => Element.holdAll_of_subset h scope he) hx⟩
  | always => exact htrue
  | term t => exact htrue
  | not e => rwa [← Expr.value?_of_isLocal D D' (.not e) he row]
  | compare op left right => rwa [← Expr.value?_of_isLocal D D' (.compare op left right) he row]
  | coalesce args => rwa [← Expr.value?_of_isLocal D D' (.coalesce args) he row]
  | call f args => rwa [← Expr.value?_of_isLocal D D' (.call f args) he row]

private theorem Element.step_subset (h : D ⊆ D') (e : Element) (he : e.isPositive = true)
    {row : Row} :
    Element.step D e row ⊆ Element.step D' e row := by
  cases e with
  | triple t => exact List.filterMap_subset _ h
  | group inner =>
    exact List.filterMap_subset _ (Row.filter_subset (Element.steps_subset h inner he)
      fun _ => Element.holdAll_of_subset h inner he)
  | union branches =>
    exact List.filterMap_subset _ (Element.branchSteps_subset h branches he)
  | optional inner => cases he
  | filter e => exact List.Subset.refl _
  | bind e target =>
    simp only [Element.step, Expr.value?_of_isLocal D D' e he row]
    exact List.Subset.refl _

private theorem Element.steps_subset (h : D ⊆ D') (g : List Element)
    (hg : Element.allPositive g = true) {row : Row} :
    Element.steps D g row ⊆ Element.steps D' g row := by
  cases g with
  | nil => exact List.Subset.refl _
  | cons e rest =>
    obtain ⟨he, hrest⟩ := Bool.and_eq_true_iff.1 hg
    intro x hx
    obtain ⟨next, hnext, hx⟩ := List.mem_flatMap.1 hx
    exact List.mem_flatMap.2 ⟨next, Element.step_subset h e he hnext,
      Element.steps_subset h rest hrest hx⟩

private theorem Element.branchSteps_subset (h : D ⊆ D') (branches : List (List Element))
    (hbranches : Element.branchesPositive branches = true) :
    Element.branchSteps D branches ⊆ Element.branchSteps D' branches := by
  cases branches with
  | nil => exact List.Subset.refl _
  | cons g rest =>
    obtain ⟨hg, hrest⟩ := Bool.and_eq_true_iff.1 hbranches
    intro x hx
    refine List.mem_append.2 ((List.mem_append.1 hx).imp (fun hx => ?_)
      fun hx => Element.branchSteps_subset h rest hrest hx)
    exact Row.filter_subset (Element.steps_subset h g hg)
      (fun _ => Element.holdAll_of_subset h g hg) hx

private theorem Element.hold_of_subset (h : D ⊆ D') (e : Element) (he : e.isPositive = true)
    {row : Row} (hholds : Element.hold D e row = true) : Element.hold D' e row = true := by
  cases e with
  | filter e =>
    simp only [Element.hold, decide_eq_true_eq] at hholds ⊢
    exact Expr.truth?_of_subset h e he hholds
  | _ => rfl

private theorem Element.holdAll_of_subset (h : D ⊆ D') (g : List Element)
    (hg : Element.allPositive g = true) {row : Row} (hholds : Element.holdAll D g row = true) :
    Element.holdAll D' g row = true := by
  cases g with
  | nil => rfl
  | cons e rest =>
    obtain ⟨he, hrest⟩ := Bool.and_eq_true_iff.1 hg
    obtain ⟨hhead, htail⟩ := Bool.and_eq_true_iff.1 hholds
    exact Bool.and_eq_true_iff.2 ⟨Element.hold_of_subset h e he hhead,
      Element.holdAll_of_subset h rest hrest htail⟩

end

/-- Over more statements a positive pattern keeps its rows. -/
theorem Group.found_subset (h : D ⊆ D') {g : Group} (hg : Element.allPositive g = true)
    (row : Row) : Group.found D g row ⊆ Group.found D' g row :=
  Row.filter_subset (Element.steps_subset h g hg) fun _ => Element.holdAll_of_subset h g hg

end

end GraphPath
