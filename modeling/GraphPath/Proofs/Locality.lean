import GraphPath.Proofs.Renaming

/-!
# Matching renamed groups

Rows of a group and rows of the renamed group correspond one to one. The correspondence is kept by
every element: by unification because no two variables become one, by joins because a branch binds
only variables of its own, and by filters because they read only variables of theirs.
-/

namespace GraphPath

/-- The second row gives the renamed variables what the first gives the variables. -/
def Row.Mirrors (ρ : Variable → Variable) (V : Set Variable) (r r' : Row) : Prop :=
  ∀ v ∈ V, r'.value? (ρ v) = r.value? v

theorem Row.Mirrors.refl_empty (ρ : Variable → Variable) (V : Set Variable) :
    Row.Mirrors ρ V .empty .empty :=
  fun _ _ => rfl

section

variable {ρ : Variable → Variable} {V : Set Variable}

private theorem Row.Mirrors.bind (hρ : Set.InjOn ρ V) {r r' : Row} (h : Row.Mirrors ρ V r r')
    {v : Variable} (hv : v ∈ V) (n : Node) : Row.Mirrors ρ V (r.bind v n) (r'.bind (ρ v) n) := by
  intro w hw
  rw [Row.value?_bind, Row.value?_bind, h w hw]
  by_cases hwv : w = v
  · simp [hwv]
  · have hne : ρ w ≠ ρ v := fun heq => hwv (hρ hw hv heq)
    simp [hwv, hne]

private theorem Row.Mirrors.meet {r r' x x' : Row} (h : Row.Mirrors ρ V r r')
    (hx : Row.Mirrors ρ V x x') (hdom : ∀ v, v ∉ V → x.value? v = none)
    (hdom' : ∀ w, w ∉ ρ '' V → x'.value? w = none) :
    Option.Rel (Row.Mirrors ρ V) (r.meet? x) (r'.meet? x') := by
  have hagree : r.agrees x = r'.agrees x' := by
    rw [Bool.eq_iff_iff, Row.agrees_iff, Row.agrees_iff]
    constructor
    · intro hag w n m hr hw
      by_cases hmem : w ∈ ρ '' V
      · obtain ⟨v, hv, rfl⟩ := hmem
        exact hag v n m ((h v hv).symm.trans hr) ((hx v hv).symm.trans hw)
      · rw [hdom' w hmem] at hw
        cases hw
    · intro hag v n m hr hv
      by_cases hmem : v ∈ V
      · exact hag (ρ v) n m ((h v hmem).trans hr) ((hx v hmem).trans hv)
      · rw [hdom v hmem] at hv
        cases hv
  unfold Row.meet?
  rw [← hagree]
  split
  · refine .some fun v hv => ?_
    rw [Row.value?_merge, Row.value?_merge, h v hv, hx v hv]
  · exact .none

private theorem Term.value?_rename {t : Term} {r r' : Row} (ht : ∀ v ∈ t.vars, v ∈ V)
    (h : Row.Mirrors ρ V r r') : (t.rename ρ).value? r' = t.value? r := by
  cases t with
  | node n => rfl
  | var v => exact h v (ht v (by simp [Term.vars]))

private theorem Term.unify_rename (hρ : Set.InjOn ρ V) {t : Term} (n : Node) {r r' : Row}
    (ht : ∀ v ∈ t.vars, v ∈ V) (h : Row.Mirrors ρ V r r') :
    Option.Rel (Row.Mirrors ρ V) (t.unify n r) ((t.rename ρ).unify n r') := by
  have hvalue := Term.value?_rename ht h
  cases hr : t.value? r with
  | some m =>
    simp only [Term.unify, hvalue, hr]
    split
    · exact .some h
    · exact .none
  | none =>
    cases t with
    | node m => cases hr
    | var v =>
      have hr' : r'.value? (ρ v) = none := hvalue.trans hr
      replace hr : r.value? v = none := hr
      simp only [Term.unify, Term.rename, Term.value?, hr, hr']
      exact .some (h.bind hρ (ht v (by simp [Term.vars])) n)

private theorem optionRel_bind {α β : Type} {R : α → α → Prop} {S : β → β → Prop}
    {a a' : Option α} {f f' : α → Option β} (h : Option.Rel R a a')
    (hf : ∀ x x', R x x' → Option.Rel S (f x) (f' x')) : Option.Rel S (a.bind f) (a'.bind f') := by
  cases h with
  | some hx => exact hf _ _ hx
  | none => exact .none

private theorem TriplePattern.unify_rename (hρ : Set.InjOn ρ V) {t : TriplePattern} (q : Quad)
    {r r' : Row} (ht : ∀ v ∈ t.vars, v ∈ V) (h : Row.Mirrors ρ V r r') :
    Option.Rel (Row.Mirrors ρ V) (t.unify r q) ((t.rename ρ).unify r' q) := by
  simp only [TriplePattern.vars, List.mem_append] at ht
  simp only [TriplePattern.unify, TriplePattern.rename, Option.bind_eq_bind]
  refine optionRel_bind
    (Term.unify_rename hρ (.iri q.subject) (fun v hv => ht v (.inl (.inl hv))) h)
    fun r₁ r₁' h₁ => ?_
  refine optionRel_bind
    (Term.unify_rename hρ (.iri q.predicate) (fun v hv => ht v (.inl (.inr hv))) h₁)
    fun r₂ r₂' h₂ => ?_
  exact Term.unify_rename hρ q.object (fun v hv => ht v (.inr hv)) h₂

private theorem forall₂_and {α : Type} {R : α → α → Prop} {P Q : α → Prop} {l l' : List α}
    (h : List.Forall₂ R l l') (hl : ∀ x ∈ l, P x) (hl' : ∀ x ∈ l', Q x) :
    List.Forall₂ (fun x x' => R x x' ∧ P x ∧ Q x') l l' := by
  induction h with
  | nil => exact .nil
  | cons hx _ ih =>
    refine .cons ⟨hx, hl _ (by simp), hl' _ (by simp)⟩ (ih ?_ ?_)
    · exact fun x hmem => hl x (List.mem_cons_of_mem _ hmem)
    · exact fun x hmem => hl' x (List.mem_cons_of_mem _ hmem)

theorem exists_of_forall₂_left {α β : Type} {R : α → β → Prop} {l : List α} {l' : List β}
    (h : List.Forall₂ R l l') {x : α} (hx : x ∈ l) : ∃ x' ∈ l', R x x' := by
  induction h with
  | nil => cases hx
  | cons hR _ ih =>
    rcases List.mem_cons.1 hx with rfl | hx
    · exact ⟨_, List.mem_cons_self, hR⟩
    · obtain ⟨x', hx', hR'⟩ := ih hx
      exact ⟨x', List.mem_cons_of_mem _ hx', hR'⟩

theorem exists_of_forall₂_right {α β : Type} {R : α → β → Prop} {l : List α} {l' : List β}
    (h : List.Forall₂ R l l') {x' : β} (hx' : x' ∈ l') : ∃ x ∈ l, R x x' :=
  exists_of_forall₂_left h.flip hx'

theorem forall_mem_iff_of_forall₂ {α β : Type} {R : α → β → Prop} {P : α → Prop} {Q : β → Prop}
    {l : List α} {l' : List β} (h : List.Forall₂ R l l') (hR : ∀ x x', R x x' → (P x ↔ Q x')) :
    (∀ x ∈ l, P x) ↔ ∀ x' ∈ l', Q x' := by
  induction h with
  | nil => simp
  | cons hx _ ih => rw [List.forall_mem_cons, List.forall_mem_cons, hR _ _ hx, ih]

theorem exists_mem_iff_of_forall₂ {α β : Type} {R : α → β → Prop} {P : α → Prop} {Q : β → Prop}
    {l : List α} {l' : List β} (h : List.Forall₂ R l l') (hR : ∀ x x', R x x' → (P x ↔ Q x')) :
    (∃ x ∈ l, P x) ↔ ∃ x' ∈ l', Q x' := by
  induction h with
  | nil => simp
  | cons hx _ ih => rw [List.exists_mem_cons_iff, List.exists_mem_cons_iff, hR _ _ hx, ih]

private theorem isEmpty_eq_of_forall₂ {α : Type} {R : α → α → Prop} {l l' : List α}
    (h : List.Forall₂ R l l') : l.isEmpty = l'.isEmpty := by
  cases h <;> rfl

private theorem forall₂_filter {α : Type} {R : α → α → Prop} {p q : α → Bool} {l l' : List α}
    (h : List.Forall₂ R l l') (hpq : ∀ x x', R x x' → q x' = p x) :
    List.Forall₂ R (l.filter p) (l'.filter q) := by
  refine List.rel_filter (fun x x' hx => ?_) h
  simp only [hpq x x' hx]

theorem forall₂_meet {r r' : Row} {xs xs' : List Row} (h : Row.Mirrors ρ V r r')
    (hxs : List.Forall₂ (Row.Mirrors ρ V) xs xs')
    (hdom : ∀ x ∈ xs, ∀ v, v ∉ V → x.value? v = none)
    (hdom' : ∀ x ∈ xs', ∀ w, w ∉ ρ '' V → x.value? w = none) :
    List.Forall₂ (Row.Mirrors ρ V) (xs.filterMap r.meet?) (xs'.filterMap r'.meet?) :=
  List.rel_filterMap (fun _ _ hx => h.meet hx.1 hx.2.1 hx.2.2) (forall₂_and hxs hdom hdom')

private theorem outside_of_map {vars : List Variable} (hvars : ∀ v ∈ vars, v ∈ V) {w : Variable}
    (hw : w ∉ ρ '' V) : w ∉ vars.map ρ := by
  intro hmem
  obtain ⟨v, hv, rfl⟩ := List.mem_map.mp hmem
  exact hw ⟨v, hvars v hv, rfl⟩

theorem steps_outside {D : List Quad} {g : Group} (hg : ∀ v ∈ Element.groupVars g, v ∈ V)
    {x : Row} (hx : x ∈ Element.steps D g .empty) (v : Variable) (hv : v ∉ V) :
    x.value? v = none :=
  (Element.steps_grows hx).outside v fun hmem => hv (hg v hmem)

theorem steps_outside_rename {D : List Quad} {g : Group}
    (hg : ∀ v ∈ Element.groupVars g, v ∈ V) {x : Row}
    (hx : x ∈ Element.steps D (Element.renameAll ρ g) .empty) (w : Variable) (hw : w ∉ ρ '' V) :
    x.value? w = none := by
  refine (Element.steps_grows hx).outside w ?_
  rw [Element.groupVars_rename]
  exact outside_of_map hg hw

mutual

theorem Expr.value?_rename (hρ : Set.InjOn ρ V) (D : List Quad) (e : Expr) {r r' : Row}
    (he : ∀ v ∈ e.vars, v ∈ V) (h : Row.Mirrors ρ V r r') :
    Expr.value? D (e.rename ρ) r' = Expr.value? D e r := by
  cases e with
  | always => rfl
  | term t => exact Term.value?_rename he h
  | not e => simp only [Expr.rename, Expr.value?, Expr.value?_rename hρ D e he h]
  | and left right =>
    simp only [Expr.vars, List.mem_append] at he
    have hl := Expr.value?_rename hρ D left (fun v hv => he v (.inl hv)) h
    have hr := Expr.value?_rename hρ D right (fun v hv => he v (.inr hv)) h
    simp only [Expr.rename, Expr.value?, hl, hr]
  | or left right =>
    simp only [Expr.vars, List.mem_append] at he
    have hl := Expr.value?_rename hρ D left (fun v hv => he v (.inl hv)) h
    have hr := Expr.value?_rename hρ D right (fun v hv => he v (.inr hv)) h
    simp only [Expr.rename, Expr.value?, hl, hr]
  | compare op left right =>
    simp only [Expr.vars, List.mem_append] at he
    have hl := Expr.value?_rename hρ D left (fun v hv => he v (.inl hv)) h
    have hr := Expr.value?_rename hρ D right (fun v hv => he v (.inr hv)) h
    simp only [Expr.rename, Expr.value?, hl, hr]
  | exist scope =>
    have hsteps := Element.steps_rename hρ D scope he h
    have hkept := forall₂_filter hsteps fun _ _ hx => Element.holdAll_rename hρ D scope he hx
    simp only [Expr.rename, Expr.value?, isEmpty_eq_of_forall₂ hkept]
  | coalesce args => exact Expr.firstValue?_rename hρ D args he h
  | call f args => simp only [Expr.rename, Expr.value?, Expr.values?_rename hρ D args he h]

private theorem Expr.firstValue?_rename (hρ : Set.InjOn ρ V) (D : List Quad) (args : List Expr)
    {r r' : Row} (he : ∀ v ∈ Expr.listVars args, v ∈ V) (h : Row.Mirrors ρ V r r') :
    Expr.firstValue? D (Expr.renameAll ρ args) r' = Expr.firstValue? D args r := by
  cases args with
  | nil => rfl
  | cons e rest =>
    simp only [Expr.listVars, List.mem_append] at he
    have hhead := Expr.value?_rename hρ D e (fun v hv => he v (.inl hv)) h
    have htail := Expr.firstValue?_rename hρ D rest (fun v hv => he v (.inr hv)) h
    simp only [Expr.renameAll, Expr.firstValue?, hhead, htail]

private theorem Expr.values?_rename (hρ : Set.InjOn ρ V) (D : List Quad) (args : List Expr)
    {r r' : Row} (he : ∀ v ∈ Expr.listVars args, v ∈ V) (h : Row.Mirrors ρ V r r') :
    Expr.values? D (Expr.renameAll ρ args) r' = Expr.values? D args r := by
  cases args with
  | nil => rfl
  | cons e rest =>
    simp only [Expr.listVars, List.mem_append] at he
    have hhead := Expr.value?_rename hρ D e (fun v hv => he v (.inl hv)) h
    have htail := Expr.values?_rename hρ D rest (fun v hv => he v (.inr hv)) h
    simp only [Expr.renameAll, Expr.values?, hhead, htail]

theorem Element.step_rename (hρ : Set.InjOn ρ V) (D : List Quad) (e : Element) {r r' : Row}
    (he : ∀ v ∈ e.vars, v ∈ V) (h : Row.Mirrors ρ V r r') :
    List.Forall₂ (Row.Mirrors ρ V) (Element.step D e r) (Element.step D (e.rename ρ) r') := by
  cases e with
  | triple t =>
    simp only [Element.rename, Element.step]
    refine List.rel_filterMap (R := Eq) ?_ (List.forall₂_refl D)
    rintro q _ rfl
    exact TriplePattern.unify_rename hρ q he h
  | group inner =>
    have hsteps := Element.steps_rename hρ D inner he (.refl_empty ρ V)
    have hkept := forall₂_filter hsteps fun _ _ hx => Element.holdAll_rename hρ D inner he hx
    simp only [Element.rename, Element.step]
    refine forall₂_meet h hkept ?_ ?_
    · exact fun x hx => steps_outside he (List.mem_of_mem_filter hx)
    · exact fun x hx => steps_outside_rename he (List.mem_of_mem_filter hx)
  | union branches =>
    simp only [Element.rename, Element.step]
    refine forall₂_meet h (Element.branchSteps_rename hρ D branches he) ?_ ?_
    · intro x hx v hv
      exact Element.branchSteps_outside hx fun hmem => hv (he v hmem)
    · intro x hx w hw
      refine Element.branchSteps_outside hx ?_
      rw [Element.branchVars_rename]
      exact outside_of_map he hw
  | optional inner =>
    have hsteps := Element.steps_rename hρ D inner he (.refl_empty ρ V)
    have hmeet := forall₂_meet h hsteps (fun x hx => steps_outside he hx)
      (fun x hx => steps_outside_rename he hx)
    have hkept := forall₂_filter hmeet fun _ _ hx => Element.holdAll_rename hρ D inner he hx
    simp only [Element.rename, Element.step, ← isEmpty_eq_of_forall₂ hkept]
    split
    · exact .cons h .nil
    · exact hkept
  | filter e => exact .cons h .nil
  | bind e target =>
    simp only [Element.vars, List.mem_append, List.mem_singleton] at he
    have htarget : target ∈ V := he target (.inr rfl)
    have hvalue := Expr.value?_rename hρ D e (fun v hv => he v (.inl hv)) h
    simp only [Element.rename, Element.step, h target htarget, hvalue]
    split
    · exact .cons h .nil
    · split
      · exact .cons (h.bind hρ htarget _) .nil
      · exact .cons h .nil

theorem Element.steps_rename (hρ : Set.InjOn ρ V) (D : List Quad) (g : List Element) {r r' : Row}
    (he : ∀ v ∈ Element.groupVars g, v ∈ V) (h : Row.Mirrors ρ V r r') :
    List.Forall₂ (Row.Mirrors ρ V) (Element.steps D g r)
      (Element.steps D (Element.renameAll ρ g) r') := by
  cases g with
  | nil => exact .cons h .nil
  | cons e rest =>
    simp only [Element.groupVars, List.mem_append] at he
    simp only [Element.renameAll, Element.steps]
    refine List.rel_flatMap (Element.step_rename hρ D e (fun v hv => he v (.inl hv)) h) ?_
    intro next next' hnext
    exact Element.steps_rename hρ D rest (fun v hv => he v (.inr hv)) hnext

private theorem Element.branchSteps_rename (hρ : Set.InjOn ρ V) (D : List Quad)
    (branches : List (List Element)) (he : ∀ v ∈ Element.branchVars branches, v ∈ V) :
    List.Forall₂ (Row.Mirrors ρ V) (Element.branchSteps D branches)
      (Element.branchSteps D (Element.renameBranches ρ branches)) := by
  cases branches with
  | nil => exact .nil
  | cons g rest =>
    simp only [Element.branchVars, List.mem_append] at he
    have hg : ∀ v ∈ Element.groupVars g, v ∈ V := fun v hv => he v (.inl hv)
    have hsteps := Element.steps_rename hρ D g hg (.refl_empty ρ V)
    have hkept := forall₂_filter hsteps fun _ _ hx => Element.holdAll_rename hρ D g hg hx
    simp only [Element.renameBranches, Element.branchSteps]
    exact List.rel_append hkept (Element.branchSteps_rename hρ D rest fun v hv => he v (.inr hv))

theorem Element.hold_rename (hρ : Set.InjOn ρ V) (D : List Quad) (e : Element) {r r' : Row}
    (he : ∀ v ∈ e.vars, v ∈ V) (h : Row.Mirrors ρ V r r') :
    Element.hold D (e.rename ρ) r' = Element.hold D e r := by
  cases e with
  | filter e => simp only [Element.rename, Element.hold, Expr.value?_rename hρ D e he h]
  | _ => rfl

private theorem Element.holdAll_rename (hρ : Set.InjOn ρ V) (D : List Quad) (g : List Element)
    {r r' : Row} (he : ∀ v ∈ Element.groupVars g, v ∈ V) (h : Row.Mirrors ρ V r r') :
    Element.holdAll D (Element.renameAll ρ g) r' = Element.holdAll D g r := by
  cases g with
  | nil => rfl
  | cons e rest =>
    simp only [Element.groupVars, List.mem_append] at he
    have hhead := Element.hold_rename hρ D e (fun v hv => he v (.inl hv)) h
    have htail := Element.holdAll_rename hρ D rest (fun v hv => he v (.inr hv)) h
    simp only [Element.renameAll, Element.holdAll, hhead, htail]

end

/-- The rows of a renamed group are the renamed rows of the group. -/
theorem Group.found_rename (hρ : Set.InjOn ρ V) (D : List Quad) (g : Group) {r r' : Row}
    (hg : ∀ v ∈ g.vars, v ∈ V) (h : Row.Mirrors ρ V r r') :
    List.Forall₂ (Row.Mirrors ρ V) (Group.found D g r)
      (Group.found D (Element.renameAll ρ g) r') :=
  forall₂_filter (Element.steps_rename hρ D g hg h) fun _ _ hx =>
    Element.holdAll_rename hρ D g hg hx

end

theorem Expr.value?_congr {D : List Quad} {e : Expr} {r r' : Row}
    (h : ∀ v ∈ e.vars, r'.value? v = r.value? v) : Expr.value? D e r' = Expr.value? D e r := by
  have hid : Set.InjOn id {v | v ∈ e.vars} := Set.injOn_id _
  have hvalue := Expr.value?_rename hid D e (fun _ hv => hv) h
  rwa [Expr.rename_id] at hvalue

theorem Element.holdAll_congr {D : List Quad} {g : Group} {r r' : Row}
    (h : ∀ e, .filter e ∈ g → ∀ v ∈ e.vars, r'.value? v = r.value? v) :
    Element.holdAll D g r' = Element.holdAll D g r := by
  induction g with
  | nil => rfl
  | cons e rest ih =>
    have htail := ih fun e' he' => h e' (List.mem_cons_of_mem _ he')
    cases e with
    | filter e =>
      have hvalue := Expr.value?_congr (D := D) (h e List.mem_cons_self)
      simp only [Element.holdAll, Element.hold, hvalue, htail]
    | _ => simp only [Element.holdAll, Element.hold, htail]

/-- The rows of a group from two seeds that agree on its variables correspond. -/
theorem Group.found_congr {D : List Quad} {g : Group} {V : Set Variable} (hg : ∀ v ∈ g.vars, v ∈ V)
    {r r' : Row} (h : ∀ v ∈ V, r'.value? v = r.value? v) :
    List.Forall₂ (fun x x' => ∀ v ∈ V, x'.value? v = x.value? v)
      (Group.found D g r) (Group.found D g r') := by
  have hfound := Group.found_rename (Set.injOn_id V) D g hg h
  rwa [Element.renameAll_id] at hfound

end GraphPath
