import GraphPath.Proofs.Locality

/-!
# Seeds and conjunction

Two facts about how a group uses the row it starts from. A group in which a variable is bound before
anything reads it can be evaluated on its own and joined to the seed afterwards. And two groups one
after the other give, from each row of the first, the rows of the second, if the variables they
share are bound by then: what a filter of the first reads does not change any more.
-/

namespace GraphPath

namespace Group

/-- Wherever a binding of the group, evaluated on its own, reads the variable, the variable has a
value. -/
def BindingsGrounded (D : List Quad) (v : Variable) (g : Group) : Prop :=
  ∀ before e target after, g = before ++ .bind e target :: after → v ∈ e.vars →
    ∀ r ∈ Element.steps D before .empty, (r.value? v).isSome

/-- If a filter of the group reads the variable, the group on its own gives it a value. -/
def FiltersGrounded (D : List Quad) (v : Variable) (g : Group) : Prop :=
  ∀ e, .filter e ∈ g → v ∈ e.vars → ∀ r ∈ Element.steps D g .empty, (r.value? v).isSome

/-- What a seed has to satisfy for a group to be joined to it: it binds at most one variable of the
group, which is no target of a binding. Optional groups look at the row they extend. -/
structure Joinable (v : Variable) (g : Group) (seed : Row) : Prop where
  only : ∀ w ∈ g.vars, w ≠ v → seed.value? w = none
  target : ∀ e w, .bind e w ∈ g → seed.value? w = none
  plain : ∀ inner, .optional inner ∉ g

end Group

theorem Element.mem_groupVars_of_mem {g : Group} {e : Expr} (he : .filter e ∈ g) {v : Variable}
    (hv : v ∈ e.vars) : v ∈ g.vars := by
  obtain ⟨before, after, rfl⟩ := List.append_of_mem he
  simp [Group.vars, Element.groupVars_append, Element.groupVars, Element.vars, hv]

theorem Row.meet?_eq_none_of_below {r y y' : Row} (hy : y.Below y') (h : r.meet? y = none) :
    r.meet? y' = none := by
  cases h' : r.meet? y' with
  | none => rfl
  | some z =>
    obtain ⟨hrz, hyz, -⟩ := Row.meet?_spec h'
    obtain ⟨m, hm, -⟩ := Row.exists_meet? hrz (hy.trans hyz)
    rw [h] at hm
    cases hm

private theorem Term.meet?_bind_unify (t : Term) (n : Node) (r y : Row) :
    (r.meet? y).bind (t.unify n) = (t.unify n y).bind r.meet? := by
  cases hz : r.meet? y with
  | some z => exact Term.unify_meet? t n hz
  | none =>
    cases hy' : t.unify n y with
    | none => rfl
    | some y' => exact (Row.meet?_eq_none_of_below (Term.unify_grows hy').below hz).symm

theorem TriplePattern.bind_unify {f : Row → Option Row} {t t' : TriplePattern}
    (hsubject : ∀ n y, (f y).bind (t'.subject.unify n) = (t.subject.unify n y).bind f)
    (hpredicate : ∀ n y, (f y).bind (t'.predicate.unify n) = (t.predicate.unify n y).bind f)
    (hobject : ∀ n y, (f y).bind (t'.object.unify n) = (t.object.unify n y).bind f)
    (q : Quad) (y : Row) : (f y).bind (t'.unify · q) = (t.unify y q).bind f := by
  simp only [TriplePattern.unify, Option.bind_eq_bind]
  calc (f y).bind (fun y => (t'.subject.unify (.iri q.subject) y).bind fun y₁ =>
          (t'.predicate.unify (.iri q.predicate) y₁).bind (t'.object.unify q.object))
      = ((f y).bind (t'.subject.unify (.iri q.subject))).bind fun y₁ =>
          (t'.predicate.unify (.iri q.predicate) y₁).bind (t'.object.unify q.object) := by
        rw [Option.bind_assoc]
    _ = (t.subject.unify (.iri q.subject) y).bind fun y₁ =>
          ((f y₁).bind (t'.predicate.unify (.iri q.predicate))).bind
            (t'.object.unify q.object) := by
        rw [hsubject, Option.bind_assoc]
        simp only [Option.bind_assoc]
    _ = (t.subject.unify (.iri q.subject) y).bind fun y₁ =>
          (t.predicate.unify (.iri q.predicate) y₁).bind fun y₂ =>
            (f y₂).bind (t'.object.unify q.object) := by
        simp only [hpredicate, Option.bind_assoc]
    _ = _ := by
        simp only [hobject, Option.bind_assoc]

theorem TriplePattern.meet?_bind_unify (t : TriplePattern) (q : Quad) (r y : Row) :
    (r.meet? y).bind (t.unify · q) = (t.unify y q).bind r.meet? :=
  TriplePattern.bind_unify (fun n => Term.meet?_bind_unify _ n r)
    (fun n => Term.meet?_bind_unify _ n r) (fun n => Term.meet?_bind_unify _ n r) q y

private theorem Row.meet?_filterMap (r y : Row) (xs : List Row) :
    (r.meet? y).toList.flatMap (fun z => xs.filterMap z.meet?) =
      (xs.filterMap y.meet?).filterMap r.meet? := by
  cases hz : r.meet? y with
  | some z =>
    simp only [Option.toList_some, List.flatMap_singleton, List.filterMap_filterMap]
    congr 1
    funext x
    exact Row.meet?_assoc hz x
  | none =>
    simp only [Option.toList_none, List.flatMap_nil, List.filterMap_filterMap]
    symm
    rw [List.filterMap_eq_nil_iff]
    intro x _
    cases hx : y.meet? x with
    | none => rfl
    | some w => exact Row.meet?_eq_none_of_below (Row.meet?_spec hx).1 hz

/-- An element can be applied before or after a seed is joined in. A binding has to see the values
it reads either way. -/
theorem Element.meet?_flatMap_step {D : List Quad} {e : Element} {r y : Row}
    (hplain : ∀ inner, e ≠ .optional inner)
    (hbind : ∀ ex target, e = .bind ex target → r.value? target = none ∧
      ∀ v ∈ ex.vars, (r.value? v).isSome → (y.value? v).isSome) :
    (r.meet? y).toList.flatMap (Element.step D e) = (Element.step D e y).filterMap r.meet? := by
  cases e with
  | triple t =>
    simp only [Element.step, List.filterMap_filterMap, ← TriplePattern.meet?_bind_unify]
    cases r.meet? y <;> simp
  | group inner =>
    simp only [Element.step]
    exact Row.meet?_filterMap r y _
  | union branches =>
    simp only [Element.step]
    exact Row.meet?_filterMap r y _
  | optional inner => exact absurd rfl (hplain inner)
  | filter e =>
    simp only [Element.step]
    cases hz : r.meet? y <;> simp [hz]
  | bind e target =>
    obtain ⟨htarget, hreads⟩ := hbind e target rfl
    cases hz : r.meet? y with
    | none =>
      symm
      simp only [Option.toList_none, List.flatMap_nil, List.filterMap_eq_nil_iff]
      exact fun y' hy' => Row.meet?_eq_none_of_below (Element.step_grows hy').below hz
    | some z =>
      obtain ⟨-, hyz, hzv⟩ := Row.meet?_spec hz
      have hvalue : Expr.value? D e z = Expr.value? D e y := by
        refine Expr.value?_congr fun v hv => ?_
        cases hyv : y.value? v with
        | some n => exact hyz v n hyv
        | none =>
          cases hrv : r.value? v with
          | none => simp [hzv, hrv, hyv]
          | some n =>
            have := hreads v hv (by simp [hrv])
            simp [hyv] at this
      have hztarget : z.value? target = y.value? target := by simp [hzv, htarget]
      simp only [Option.toList_some, List.flatMap_singleton, Element.step, hztarget, hvalue]
      split
      · simp [hz]
      · next hbound =>
        have hnone : y.value? target = none := by simpa using hbound
        split
        · simp [Row.meet?_bind _ hz htarget hnone]
        · simp [hz]

/-- A group can be evaluated before or after a seed is joined in. The induction is on what is left
of the group; what came before it tells which rows can reach a binding. -/
theorem Element.meet?_flatMap_steps {D : List Quad} {v : Variable} {r : Row} (before g : Group)
    (hbindings : Group.BindingsGrounded D v (before ++ g)) (hseed : Group.Joinable v g r) {y : Row}
    (hy : y ∈ Element.steps D before .empty) :
    (r.meet? y).toList.flatMap (Element.steps D g) = (Element.steps D g y).filterMap r.meet? := by
  induction g generalizing before y with
  | nil =>
    simp only [Element.steps]
    cases hz : r.meet? y <;> simp [hz]
  | cons e rest ih =>
    have hstep : (r.meet? y).toList.flatMap (Element.step D e) =
        (Element.step D e y).filterMap r.meet? := by
      refine Element.meet?_flatMap_step (fun inner heq => ?_) fun ex target heq => ?_
      · exact hseed.plain inner (heq ▸ List.mem_cons_self)
      · subst heq
        refine ⟨hseed.target ex target List.mem_cons_self, fun w hw hrw => ?_⟩
        by_cases hwv : w = v
        · subst hwv
          exact hbindings before ex target rest rfl hw y hy
        · have hmem : w ∈ Group.vars (.bind ex target :: rest) := by
            simp [Group.vars, Element.groupVars, Element.vars, hw]
          rw [hseed.only w hmem hwv] at hrw
          cases hrw
    have hrest : Group.Joinable v rest r := by
      refine ⟨fun w hw => hseed.only w ?_, fun ex w hmem => ?_, fun inner hmem => ?_⟩
      · exact List.mem_append_right _ hw
      · exact hseed.target ex w (List.mem_cons_of_mem _ hmem)
      · exact hseed.plain inner (List.mem_cons_of_mem _ hmem)
    have htail : ∀ y' ∈ Element.step D e y,
        (r.meet? y').toList.flatMap (Element.steps D rest) =
          (Element.steps D rest y').filterMap r.meet? := by
      intro y' hy'
      refine ih (before ++ [e]) (by simpa using hbindings) hrest ?_
      rw [Element.steps_append, List.mem_flatMap]
      exact ⟨y, hy, by simpa [Element.steps] using hy'⟩
    calc (r.meet? y).toList.flatMap (Element.steps D (e :: rest))
        = ((r.meet? y).toList.flatMap (Element.step D e)).flatMap (Element.steps D rest) := by
          rw [List.flatMap_assoc]
          rfl
      _ = (Element.step D e y).flatMap fun y' =>
            (r.meet? y').toList.flatMap (Element.steps D rest) := by
          rw [hstep, List.filterMap_eq_flatMap_toList, List.flatMap_assoc]
      _ = (Element.step D e y).flatMap fun y' =>
            (Element.steps D rest y').filterMap r.meet? := List.flatMap_congr htail
      _ = (Element.steps D (e :: rest) y).filterMap r.meet? := by
          rw [Element.steps, List.filterMap_flatMap]

private theorem Element.steps_eq_meet {D : List Quad} {v : Variable} {g : Group} {r : Row}
    (hbindings : Group.BindingsGrounded D v g) (hseed : Group.Joinable v g r) :
    Element.steps D g r = (Element.steps D g .empty).filterMap r.meet? := by
  have h := Element.meet?_flatMap_steps [] g hbindings hseed (y := .empty) (by simp [Element.steps])
  simpa using h

private theorem filter_filterMap_meet {D : List Quad} {g : Group} {r : Row} (xs : List Row)
    (h : ∀ x ∈ xs, ∀ z, r.meet? x = some z → Element.holdAll D g z = Element.holdAll D g x) :
    (xs.filterMap r.meet?).filter (Element.holdAll D g) =
      (xs.filter (Element.holdAll D g)).filterMap r.meet? := by
  induction xs with
  | nil => rfl
  | cons x xs ih =>
    have htail := ih fun x' hx' => h x' (List.mem_cons_of_mem _ hx')
    cases hz : r.meet? x with
    | none => by_cases hx : Element.holdAll D g x <;> simp [hz, hx, htail]
    | some z =>
      have hhold := h x List.mem_cons_self z hz
      by_cases hx : Element.holdAll D g x <;> simp [hz, hx, hhold, htail]

/-- A group that reads a variable only where it has bound it is found on its own, and joined to the
seed afterwards. -/
theorem Group.found_eq_meet {D : List Quad} {v : Variable} {g : Group} {r : Row}
    (hbindings : g.BindingsGrounded D v) (hfilters : g.FiltersGrounded D v)
    (hseed : g.Joinable v r) :
    Group.found D g r = (Group.found D g .empty).filterMap r.meet? := by
  unfold Group.found
  rw [Element.steps_eq_meet hbindings hseed]
  refine filter_filterMap_meet _ fun x hx z hz => Element.holdAll_congr fun e he w hw => ?_
  obtain ⟨-, hxz, hzv⟩ := Row.meet?_spec hz
  by_cases hwv : w = v
  · subst hwv
    obtain ⟨n, hn⟩ := Option.isSome_iff_exists.mp (hfilters e he hw x hx)
    rw [hn]
    exact hxz w n hn
  · rw [hzv, hseed.only w (Element.mem_groupVars_of_mem he hw) hwv, Option.none_or]

/-- Two groups one after the other: the filters of the first can be applied before the second if
the second gives no value to a variable that they read. -/
theorem Group.found_append_of_filters {D : List Quad} {g g' : Group} {r : Row}
    (h : ∀ x ∈ Element.steps D g r, ∀ y ∈ Element.steps D g' x, ∀ e, .filter e ∈ g →
      ∀ v ∈ e.vars, y.value? v = x.value? v) :
    Group.found D (g ++ g') r = (Group.found D g r).flatMap (Group.found D g') := by
  have hfirst : ∀ x ∈ Element.steps D g r, (Element.steps D g' x).filter
      (Element.holdAll D (g ++ g')) =
        if Element.holdAll D g x then Group.found D g' x else [] := by
    intro x hx
    have hsame : ∀ y ∈ Element.steps D g' x,
        Element.holdAll D g y = Element.holdAll D g x := fun y hy =>
      Element.holdAll_congr fun e he v hv => h x hx y hy e he v hv
    have hcongr : (Element.steps D g' x).filter (Element.holdAll D (g ++ g')) =
        (Element.steps D g' x).filter fun y =>
          Element.holdAll D g x && Element.holdAll D g' y := by
      refine List.filter_congr fun y hy => ?_
      rw [Element.holdAll_append, hsame y hy]
    rw [hcongr]
    cases Element.holdAll D g x <;> simp [Group.found]
  have hflat : Group.found D (g ++ g') r = (Element.steps D g r).flatMap fun x =>
      if Element.holdAll D g x then Group.found D g' x else [] := by
    rw [Group.found, Element.steps_append, List.filter_flatMap]
    exact List.flatMap_congr hfirst
  rw [hflat, Group.found]
  induction Element.steps D g r with
  | nil => rfl
  | cons x xs ih => by_cases hx : Element.holdAll D g x <;> simp [hx, ih]

theorem Group.found_append {D : List Quad} {g g' : Group} {r : Row}
    (h : ∀ x ∈ Element.steps D g r, ∀ y ∈ Element.steps D g' x, ∀ v ∈ g.vars,
      y.value? v = x.value? v) :
    Group.found D (g ++ g') r = (Group.found D g r).flatMap (Group.found D g') :=
  Group.found_append_of_filters fun x hx y hy _ he v hv =>
    h x hx y hy v (Element.mem_groupVars_of_mem he hv)

theorem Group.found_append_of_bound {D : List Quad} {g g' : Group} {r : Row}
    (h : ∀ x ∈ Element.steps D g r, ∀ v ∈ g.vars, v ∈ g'.vars → (x.value? v).isSome) :
    Group.found D (g ++ g') r = (Group.found D g r).flatMap (Group.found D g') := by
  refine Group.found_append fun x hx y hy v hv => ?_
  have hgrows := Element.steps_grows hy
  by_cases hmem : v ∈ Group.vars g'
  · obtain ⟨n, hn⟩ := Option.isSome_iff_exists.mp (h x hx v hv hmem)
    rw [hn]
    exact hgrows.below v n hn
  · exact hgrows.outside v hmem

theorem Group.found_filter (D : List Quad) (g : Group) (e : Expr) (r : Row) :
    Group.found D (g ++ [.filter e]) r =
      (Group.found D g r).filter fun x => truth? (Expr.value? D e x) = some true := by
  have hsteps : Element.steps D (g ++ [.filter e]) r = Element.steps D g r := by
    simp [Element.steps_append, Element.steps, Element.step]
  rw [Group.found, Group.found, hsteps, List.filter_filter]
  refine List.filter_congr fun x _ => ?_
  simp [Element.holdAll_append, Element.holdAll, Element.hold, Bool.and_comm]

end GraphPath
