import GraphPath.Proofs.Locality

/-!
# The cap on rows

A query under a cap either gives the rows that it has without one, or fails because some step holds
more rows than the cap. Which of the two happens is a matter of its peak alone, so raising the cap
never changes an answer. The peak does not depend on the names of variables.
-/

namespace GraphPath

private theorem Row.largest_eq_of_forall₂ {R : Row → Row → Prop} {size size' : Row → Nat}
    {rows rows' : List Row} (h : List.Forall₂ R rows rows')
    (hsize : ∀ row row', R row row' → size' row' = size row) :
    Row.largest size' rows' = Row.largest size rows := by
  induction h with
  | nil => rfl
  | @cons row row' rows rows' hrow _ ih =>
    change max (size' row') (Row.largest size' rows') = max (size row) (Row.largest size rows)
    rw [hsize row row' hrow, ih]

section

variable {ρ : Variable → Variable} {V : Set Variable}

mutual

private theorem Expr.peak_rename (hρ : Set.InjOn ρ V) (D : List Quad) (e : Expr) {r r' : Row}
    (he : ∀ v ∈ e.vars, v ∈ V) (h : Row.Mirrors ρ V r r') :
    Expr.peak D (e.rename ρ) r' = Expr.peak D e r := by
  cases e with
  | always => rfl
  | term t => rfl
  | not e => exact Expr.peak_rename hρ D e he h
  | and left right =>
    simp only [Expr.vars, List.mem_append] at he
    simp only [Expr.rename, Expr.peak, Expr.peak_rename hρ D left (fun v hv => he v (.inl hv)) h,
      Expr.peak_rename hρ D right (fun v hv => he v (.inr hv)) h]
  | or left right =>
    simp only [Expr.vars, List.mem_append] at he
    simp only [Expr.rename, Expr.peak, Expr.peak_rename hρ D left (fun v hv => he v (.inl hv)) h,
      Expr.peak_rename hρ D right (fun v hv => he v (.inr hv)) h]
  | compare op left right =>
    simp only [Expr.vars, List.mem_append] at he
    simp only [Expr.rename, Expr.peak, Expr.peak_rename hρ D left (fun v hv => he v (.inl hv)) h,
      Expr.peak_rename hρ D right (fun v hv => he v (.inr hv)) h]
  | exist scope =>
    have hpeak := Element.peakAll_rename hρ D scope he (.cons h .nil)
    have hchecks := Row.largest_eq_of_forall₂ (Element.steps_rename hρ D scope he h)
      fun _ _ hx => Element.checkAllPeak_rename hρ D scope he hx
    simp only [Expr.rename, Expr.peak, hpeak, hchecks]
  | coalesce args => exact Expr.firstPeak_rename hρ D args he h
  | call f args => exact Expr.valuesPeak_rename hρ D args he h

private theorem Expr.firstPeak_rename (hρ : Set.InjOn ρ V) (D : List Quad) (args : List Expr)
    {r r' : Row} (he : ∀ v ∈ Expr.listVars args, v ∈ V) (h : Row.Mirrors ρ V r r') :
    Expr.firstPeak D (Expr.renameAll ρ args) r' = Expr.firstPeak D args r := by
  cases args with
  | nil => rfl
  | cons e rest =>
    simp only [Expr.listVars, List.mem_append] at he
    have hvalue := Expr.value?_rename hρ D e (fun v hv => he v (.inl hv)) h
    have hhead := Expr.peak_rename hρ D e (fun v hv => he v (.inl hv)) h
    have htail := Expr.firstPeak_rename hρ D rest (fun v hv => he v (.inr hv)) h
    simp only [Expr.renameAll, Expr.firstPeak, hvalue, hhead, htail]

private theorem Expr.valuesPeak_rename (hρ : Set.InjOn ρ V) (D : List Quad) (args : List Expr)
    {r r' : Row} (he : ∀ v ∈ Expr.listVars args, v ∈ V) (h : Row.Mirrors ρ V r r') :
    Expr.valuesPeak D (Expr.renameAll ρ args) r' = Expr.valuesPeak D args r := by
  cases args with
  | nil => rfl
  | cons e rest =>
    simp only [Expr.listVars, List.mem_append] at he
    have hvalue := Expr.value?_rename hρ D e (fun v hv => he v (.inl hv)) h
    have hhead := Expr.peak_rename hρ D e (fun v hv => he v (.inl hv)) h
    have htail := Expr.valuesPeak_rename hρ D rest (fun v hv => he v (.inr hv)) h
    simp only [Expr.renameAll, Expr.valuesPeak, hvalue, hhead, htail]

private theorem Element.peak_rename (hρ : Set.InjOn ρ V) (D : List Quad) (e : Element)
    {rows rows' : List Row} (he : ∀ v ∈ e.vars, v ∈ V)
    (h : List.Forall₂ (Row.Mirrors ρ V) rows rows') :
    Element.peak D (e.rename ρ) rows' = Element.peak D e rows := by
  cases e with
  | triple t => rfl
  | group inner =>
    have hpeak := Element.peakAll_rename hρ D inner he (.cons (.refl_empty ρ V) .nil)
    have hchecks := Row.largest_eq_of_forall₂
      (Element.steps_rename hρ D inner he (.refl_empty ρ V))
      fun _ _ hx => Element.checkAllPeak_rename hρ D inner he hx
    simp only [Element.rename, Element.peak, hpeak, hchecks]
  | union branches => exact Element.branchPeak_rename hρ D branches he
  | optional inner =>
    have hpeak := Element.peakAll_rename hρ D inner he (.cons (.refl_empty ρ V) .nil)
    have hchecks := Row.largest_eq_of_forall₂ h fun row row' hrow =>
      Row.largest_eq_of_forall₂ (forall₂_meet hrow
        (Element.steps_rename hρ D inner he (.refl_empty ρ V)) (fun x hx => steps_outside he hx)
        (fun x hx => steps_outside_rename he hx))
        fun _ _ hx => Element.checkAllPeak_rename hρ D inner he hx
    simp only [Element.rename, Element.peak, hpeak, hchecks]
  | filter e => rfl
  | bind e target =>
    simp only [Element.vars, List.mem_append, List.mem_singleton] at he
    simp only [Element.rename, Element.peak]
    refine Row.largest_eq_of_forall₂ h fun row row' hrow => ?_
    rw [hrow target (he target (.inr rfl)),
      Expr.peak_rename hρ D e (fun v hv => he v (.inl hv)) hrow]

private theorem Element.peakAll_rename (hρ : Set.InjOn ρ V) (D : List Quad) (g : List Element)
    {rows rows' : List Row} (he : ∀ v ∈ Element.groupVars g, v ∈ V)
    (h : List.Forall₂ (Row.Mirrors ρ V) rows rows') :
    Element.peakAll D (Element.renameAll ρ g) rows' = Element.peakAll D g rows := by
  cases g with
  | nil => rfl
  | cons e rest =>
    simp only [Element.groupVars, List.mem_append] at he
    have hhead : ∀ v ∈ e.vars, v ∈ V := fun v hv => he v (.inl hv)
    have hextended := List.rel_flatMap h fun _ _ hrow => Element.step_rename hρ D e hhead hrow
    have hpeak := Element.peak_rename hρ D e hhead h
    have hrest := Element.peakAll_rename hρ D rest (fun v hv => he v (.inr hv)) hextended
    simp only [Element.renameAll, Element.peakAll, hpeak, hrest, hextended.length_eq]

private theorem Element.branchPeak_rename (hρ : Set.InjOn ρ V) (D : List Quad)
    (branches : List (List Element)) (he : ∀ v ∈ Element.branchVars branches, v ∈ V) :
    Element.branchPeak D (Element.renameBranches ρ branches) = Element.branchPeak D branches := by
  cases branches with
  | nil => rfl
  | cons g rest =>
    simp only [Element.branchVars, List.mem_append] at he
    have hg : ∀ v ∈ Element.groupVars g, v ∈ V := fun v hv => he v (.inl hv)
    have hpeak := Element.peakAll_rename hρ D g hg (.cons (.refl_empty ρ V) .nil)
    have hchecks := Row.largest_eq_of_forall₂ (Element.steps_rename hρ D g hg (.refl_empty ρ V))
      fun _ _ hx => Element.checkAllPeak_rename hρ D g hg hx
    have hrest := Element.branchPeak_rename hρ D rest fun v hv => he v (.inr hv)
    simp only [Element.renameBranches, Element.branchPeak, hpeak, hchecks, hrest]

private theorem Element.checkPeak_rename (hρ : Set.InjOn ρ V) (D : List Quad) (e : Element)
    {r r' : Row} (he : ∀ v ∈ e.vars, v ∈ V) (h : Row.Mirrors ρ V r r') :
    Element.checkPeak D (e.rename ρ) r' = Element.checkPeak D e r := by
  cases e with
  | filter e => exact Expr.peak_rename hρ D e he h
  | _ => rfl

private theorem Element.checkAllPeak_rename (hρ : Set.InjOn ρ V) (D : List Quad) (g : List Element)
    {r r' : Row} (he : ∀ v ∈ Element.groupVars g, v ∈ V) (h : Row.Mirrors ρ V r r') :
    Element.checkAllPeak D (Element.renameAll ρ g) r' = Element.checkAllPeak D g r := by
  cases g with
  | nil => rfl
  | cons e rest =>
    simp only [Element.groupVars, List.mem_append] at he
    have hhold := Element.hold_rename hρ D e (fun v hv => he v (.inl hv)) h
    have hhead := Element.checkPeak_rename hρ D e (fun v hv => he v (.inl hv)) h
    have htail := Element.checkAllPeak_rename hρ D rest (fun v hv => he v (.inr hv)) h
    simp only [Element.renameAll, Element.checkAllPeak, hhold, hhead, htail]

end

theorem Group.peak_rename (hρ : Set.InjOn ρ V) (D : List Quad) (g : Group)
    {rows rows' : List Row} (hg : ∀ v ∈ g.vars, v ∈ V)
    (h : List.Forall₂ (Row.Mirrors ρ V) rows rows') :
    Group.peak D (Element.renameAll ρ g) rows' = Group.peak D g rows := by
  have hsteps := List.rel_flatMap h fun _ _ hrow => Element.steps_rename hρ D g hg hrow
  rw [Group.peak, Group.peak, Element.peakAll_rename hρ D g hg h,
    Row.largest_eq_of_forall₂ hsteps fun _ _ hx => Element.checkAllPeak_rename hρ D g hg hx]

end

namespace Query

/-- The statements that the query sees. -/
def visible (q : Query) (D : List Quad) : List Quad := D.filter (Quad.isVisible q.graph)

/-- The largest number of rows that a step of the query holds. -/
def peak (q : Query) (D : List Quad) : Nat := Group.peak (q.visible D) q.pattern [.empty]

/-- A query has its answers exactly under the caps that its peak does not exceed. -/
theorem eval_eq (q : Query) (D : List Quad) (cap : Nat) :
    q.eval D cap = if q.peak D ≤ cap then
      .ok (q.answers (Group.found (q.visible D) q.pattern .empty))
    else .error (.tooManyRows cap) := by
  have hrows := Group.rows_settlesAt (q.visible D) q.pattern [.empty]
  rw [List.flatMap_singleton] at hrows
  exact hrows.map q.answers cap

/-- A larger cap keeps every answer, and turns nothing into an error. Under any cap a query fails
exactly if one of its steps, however deep, holds more rows than the cap. -/
theorem eval_of_cap_le (q : Query) (D : List Quad) {cap cap' : Nat} (h : cap ≤ cap') :
    (∀ rows, q.eval D cap = .ok rows → q.eval D cap' = .ok rows) ∧
    (∀ e, q.eval D cap' = .error e → q.eval D cap = .error (.tooManyRows cap)) ∧
    (q.eval D cap = .error (.tooManyRows cap) ↔ cap < q.peak D) := by
  rw [q.eval_eq D cap, q.eval_eq D cap']
  refine ⟨fun rows hrows => ?_, fun e he => ?_, ?_⟩
  · split at hrows
    · next hpeak => rw [if_pos (hpeak.trans h), hrows]
    · cases hrows
  · split at he
    · cases he
    · next hpeak => rw [if_neg fun hle => hpeak (hle.trans h)]
  · split
    · next hpeak => simp [hpeak]
    · next hpeak => simpa using hpeak

/-- The one row of the pattern asks for two rows in the scope of its filter. -/
theorem eval_of_cap_le_scope :
    let p : Iri := ⟨"http://e/p"⟩
    let b : Iri := ⟨"http://e/b"⟩
    let D : List Quad := [⟨⟨"http://e/a"⟩, p, .iri b, none⟩, ⟨b, p, .literal (.plain "c"), none⟩,
      ⟨b, p, .literal (.plain "d"), none⟩]
    let q : Query := {
      projection := ⟨"x"⟩
      pattern := [.ofTriple (.var ⟨"x"⟩) (.iri p) (.iri b),
        .filter (.exist [.ofTriple (.iri b) (.iri p) (.var ⟨"y"⟩)])] }
    q.eval D 1 = .error (.tooManyRows 1) ∧ 2 ≤ 3 ∧
      ∃ rows, q.eval D 2 = .ok rows ∧ q.eval D 3 = .ok rows := by
  intro p b D q
  obtain ⟨rows, hrows⟩ : ∃ rows, q.eval D 2 = .ok rows := ⟨_, rfl⟩
  exact ⟨rfl, by decide, rows, hrows, (q.eval_of_cap_le D (by decide)).1 rows hrows⟩

end Query

end GraphPath
