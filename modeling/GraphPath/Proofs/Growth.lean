import GraphPath.Proofs.Unbounded

/-!
# Growth of rows

An element keeps what a row binds and binds only variables that stand in it. The same holds of a
group, and a branch that starts from nothing binds only its own variables.
-/

namespace GraphPath

/-- The second row keeps the bindings of the first and differs from it only on the variables. -/
structure Row.Grows (vars : List Variable) (r r' : Row) : Prop where
  below : r.Below r'
  outside : ∀ v, v ∉ vars → r'.value? v = r.value? v

namespace Row.Grows

variable {vars vars' : List Variable} {r r' r'' : Row}

private theorem refl (vars : List Variable) (r : Row) : r.Grows vars r :=
  ⟨Row.Below.refl r, fun _ _ => rfl⟩

private theorem trans (h : r.Grows vars r') (h' : r'.Grows vars' r'') :
    r.Grows (vars ++ vars') r'' := by
  refine ⟨h.below.trans h'.below, fun v hv => ?_⟩
  rw [List.mem_append, not_or] at hv
  rw [h'.outside v hv.2, h.outside v hv.1]

private theorem mono (h : r.Grows vars r') (hsub : vars ⊆ vars') : r.Grows vars' r' :=
  ⟨h.below, fun v hv => h.outside v fun hmem => hv (hsub hmem)⟩

private theorem bind {v : Variable} {n : Node} (h : r.value? v = none) :
    r.Grows [v] (r.bind v n) := by
  refine ⟨Row.below_bind h, fun w hw => ?_⟩
  have hne : w ≠ v := by simpa using hw
  rw [Row.value?_bind, if_neg hne]

theorem meet {x : Row} (hx : ∀ v, v ∉ vars → x.value? v = none) (h : r.meet? x = some r') :
    r.Grows vars r' := by
  obtain ⟨hbelow, -, hvalue⟩ := Row.meet?_spec h
  refine ⟨hbelow, fun v hv => ?_⟩
  rw [hvalue, hx v hv, Option.or_none]

end Row.Grows

theorem Term.unify_grows {t : Term} {n : Node} {r r' : Row} (h : t.unify n r = some r') :
    r.Grows t.vars r' := by
  cases t with
  | node m =>
    simp only [unify, value?] at h
    split at h
    · cases h
      exact .refl _ _
    · cases h
  | var v =>
    cases hv : r.value? v with
    | some m =>
      simp only [unify, value?, hv] at h
      split at h
      · cases h
        exact .refl _ _
      · cases h
    | none =>
      simp only [unify, value?, hv, Option.some.injEq] at h
      subst h
      exact .bind hv

theorem TriplePattern.unify_grows {t : TriplePattern} {q : Quad} {r r' : Row}
    (h : t.unify r q = some r') : r.Grows t.vars r' := by
  simp only [unify, Option.bind_eq_bind, Option.bind_eq_some_iff] at h
  obtain ⟨r₁, hsubject, r₂, hpredicate, hobject⟩ := h
  exact ((Term.unify_grows hsubject).trans (Term.unify_grows hpredicate)).trans
    (Term.unify_grows hobject)

private theorem Term.value?_of_unify {t : Term} {n : Node} {r r' : Row}
    (h : t.unify n r = some r') :
    t.value? r' = some n := by
  cases t with
  | node m =>
    simp only [unify, value?] at h ⊢
    split at h
    · next heq => rw [heq]
    · cases h
  | var v =>
    cases hv : r.value? v with
    | some m =>
      simp only [unify, value?, hv] at h
      split at h
      · next heq =>
        cases h
        rw [value?, hv, heq]
      · cases h
    | none =>
      simp only [unify, value?, hv, Option.some.injEq] at h
      subst h
      simp [value?]

private theorem Term.value?_of_below {t : Term} {n : Node} {r r' : Row} (h : r.Below r')
    (ht : t.value? r = some n) : t.value? r' = some n := by
  cases t with
  | node m => exact ht
  | var v => exact h v n ht

private theorem Term.exists_unify {t : Term} {n : Node} {r r' : Row} (h : r.Below r')
    (ht : t.value? r' = some n) : ∃ r'', t.unify n r = some r'' ∧ r''.Below r' := by
  cases t with
  | node m =>
    have hm : m = n := Option.some.inj ht
    exact ⟨r, by simp [unify, value?, hm], h⟩
  | var v =>
    cases hv : r.value? v with
    | some m =>
      have hm : m = n := Option.some.inj ((h v m hv).symm.trans ht)
      exact ⟨r, by simp [unify, value?, hv, hm], h⟩
    | none =>
      refine ⟨r.bind v n, by simp [unify, value?, hv], fun w k hw => ?_⟩
      rw [Row.value?_bind] at hw
      split at hw
      · next hwv =>
        rw [hwv, ← hw]
        exact ht
      · exact h w k hw

/-- A row says of a pattern that it stands for a statement. -/
def TriplePattern.StandsFor (t : TriplePattern) (r : Row) (q : Quad) : Prop :=
  t.subject.value? r = some (.iri q.subject) ∧ t.predicate.value? r = some (.iri q.predicate) ∧
    t.object.value? r = some q.object

theorem TriplePattern.standsFor_of_unify {t : TriplePattern} {q : Quad} {r r' : Row}
    (h : t.unify r q = some r') : t.StandsFor r' q := by
  simp only [unify, Option.bind_eq_bind, Option.bind_eq_some_iff] at h
  obtain ⟨r₁, hsubject, r₂, hpredicate, hobject⟩ := h
  have h₂ := (Term.unify_grows hobject).below
  refine ⟨?_, Term.value?_of_below h₂ (Term.value?_of_unify hpredicate),
    Term.value?_of_unify hobject⟩
  exact Term.value?_of_below ((Term.unify_grows hpredicate).below.trans h₂)
    (Term.value?_of_unify hsubject)

theorem TriplePattern.exists_unify {t : TriplePattern} {q : Quad} {r r' : Row} (h : r.Below r')
    (ht : t.StandsFor r' q) : ∃ r'', t.unify r q = some r'' ∧ r''.Below r' := by
  obtain ⟨r₁, hsubject, h₁⟩ := Term.exists_unify h ht.1
  obtain ⟨r₂, hpredicate, h₂⟩ := Term.exists_unify h₁ ht.2.1
  obtain ⟨r₃, hobject, h₃⟩ := Term.exists_unify h₂ ht.2.2
  exact ⟨r₃, by simp [unify, hsubject, hpredicate, hobject], h₃⟩

theorem TriplePattern.StandsFor.isSome {t : TriplePattern} {q : Quad} {r : Row}
    (h : t.StandsFor r q) {v : Variable} (hv : v ∈ t.vars) : (r.value? v).isSome := by
  have hterm : ∀ {s : Term} {n : Node}, s.value? r = some n → v ∈ s.vars →
      (r.value? v).isSome := by
    intro s n hs hmem
    cases s with
    | node m => cases hmem
    | var w =>
      rw [List.mem_singleton.1 hmem]
      exact Option.isSome_of_eq_some hs
  simp only [TriplePattern.vars, List.mem_append] at hv
  rcases hv with (hv | hv) | hv
  · exact hterm h.1 hv
  · exact hterm h.2.1 hv
  · exact hterm h.2.2 hv

theorem Element.step_bind_grows {D : List Quad} {e : Expr} {target : Variable} {r r' : Row}
    (h : r' ∈ Element.step D (.bind e target) r) : r.Grows [target] r' := by
  simp only [Element.step] at h
  split at h
  · rw [List.mem_singleton] at h
    subst h
    exact .refl _ _
  · next hbound =>
    have hnone : r.value? target = none := by simpa using hbound
    split at h <;> rw [List.mem_singleton] at h <;> subst h
    · exact .bind hnone
    · exact .refl _ _

mutual

theorem Element.step_grows {D : List Quad} {e : Element} {r r' : Row}
    (h : r' ∈ Element.step D e r) : r.Grows e.vars r' := by
  cases e with
  | triple t =>
    rw [Element.step, List.mem_filterMap] at h
    obtain ⟨q, -, hq⟩ := h
    exact TriplePattern.unify_grows hq
  | group inner =>
    rw [Element.step, List.mem_filterMap] at h
    obtain ⟨x, hx, hmeet⟩ := h
    exact .meet (fun v hv => (Element.steps_grows (List.mem_of_mem_filter hx)).outside v hv) hmeet
  | union branches =>
    rw [Element.step, List.mem_filterMap] at h
    obtain ⟨x, hx, hmeet⟩ := h
    exact .meet (fun v hv => Element.branchSteps_outside hx hv) hmeet
  | optional inner =>
    simp only [Element.step] at h
    split at h
    · rw [List.mem_singleton] at h
      subst h
      exact .refl _ _
    · obtain ⟨x, hx, hmeet⟩ := List.mem_filterMap.mp (List.mem_of_mem_filter h)
      exact .meet (fun v hv => (Element.steps_grows hx).outside v hv) hmeet
  | filter e =>
    rw [Element.step, List.mem_singleton] at h
    subst h
    exact .refl _ _
  | bind e target => exact (Element.step_bind_grows h).mono (by simp [Element.vars])

theorem Element.steps_grows {D : List Quad} {g : List Element} {r r' : Row}
    (h : r' ∈ Element.steps D g r) : r.Grows (Element.groupVars g) r' := by
  cases g with
  | nil =>
    rw [Element.steps, List.mem_singleton] at h
    subst h
    exact .refl _ _
  | cons e rest =>
    rw [Element.steps, List.mem_flatMap] at h
    obtain ⟨next, hnext, hrest⟩ := h
    exact (Element.step_grows hnext).trans (Element.steps_grows hrest)

theorem Element.branchSteps_outside {D : List Quad} {branches : List (List Element)} {x : Row}
    (h : x ∈ Element.branchSteps D branches) {v : Variable}
    (hv : v ∉ Element.branchVars branches) : x.value? v = none := by
  cases branches with
  | nil => simp [Element.branchSteps] at h
  | cons g rest =>
    rw [Element.branchVars, List.mem_append, not_or] at hv
    rw [Element.branchSteps, List.mem_append] at h
    rcases h with h | h
    · exact (Element.steps_grows (List.mem_of_mem_filter h)).outside v hv.1
    · exact Element.branchSteps_outside h hv.2

end

theorem Group.found_grows {D : List Quad} {g : Group} {r r' : Row} (h : r' ∈ Group.found D g r) :
    r.Grows g.vars r' :=
  Element.steps_grows (List.mem_of_mem_filter h)

theorem Element.mem_branchSteps_iff {D : List Quad} {branches : List Group} {x : Row} :
    x ∈ Element.branchSteps D branches ↔ ∃ g ∈ branches, x ∈ Group.found D g .empty := by
  induction branches with
  | nil => simp [Element.branchSteps]
  | cons g rest ih => simp [Element.branchSteps, ih, Group.found]

theorem Element.steps_append (D : List Quad) (g g' : Group) (r : Row) :
    Element.steps D (g ++ g') r = (Element.steps D g r).flatMap (Element.steps D g') := by
  induction g generalizing r with
  | nil => simp [Element.steps]
  | cons e rest ih => simp [Element.steps, ih, List.flatMap_assoc]

theorem Element.holdAll_append (D : List Quad) (g g' : Group) (r : Row) :
    Element.holdAll D (g ++ g') r = (Element.holdAll D g r && Element.holdAll D g' r) := by
  induction g with
  | nil => simp [Element.holdAll]
  | cons e rest ih => simp [Element.holdAll, ih, Bool.and_assoc]

theorem Element.groupVars_append (g g' : Group) :
    Element.groupVars (g ++ g') = Element.groupVars g ++ Element.groupVars g' := by
  induction g with
  | nil => rfl
  | cons e rest ih => simp [Element.groupVars, ih]

end GraphPath
