import GraphPath.Proofs.Denotation
import GraphPath.Proofs.Freshness

/-!
# Compiled alternatives

The branches of compiled alternatives are matched on their own, where the context has no value yet,
and then joined to the seed. A branch that gives its context a value before it reads it matches the
same values on its own and from the seed, and so the alternatives have the values of all branches.
-/

namespace GraphPath

namespace Emission

/-- The values of what was compiled, from a seed. -/
def values (D : List Quad) (em : Emission Variable) (seed : Row) : Set Node :=
  {n | ∃ row ∈ Group.found D em.elements seed, row.value? em.value = some n}

theorem mem_values {D : List Quad} {em : Emission Variable} {seed : Row} {n : Node} :
    n ∈ em.values D seed ↔
      ∃ row ∈ Group.found D em.elements seed, row.value? em.value = some n := Iff.rfl

/-- The values that are left as those of an alternative: a context that is given back has to be
stored. -/
def offered (D : List Quad) (context : Variable) (em : Emission Variable) (seed : Row) :
    Set Node :=
  {n ∈ em.values D seed | em.value = context → n.StoredIn D}

theorem mem_offered {D : List Quad} {context : Variable} {em : Emission Variable} {seed : Row}
    {n : Node} : n ∈ em.offered D context seed ↔
      n ∈ em.values D seed ∧ (em.value = context → n.StoredIn D) := Iff.rfl

/-- Compiled from a context, it can be matched on its own: no binding reads the context before it
has a value, and no filter reads it if it gets none. If the context is itself the value, it gets
one at the end of the branch. -/
structure Grounded (D : List Quad) (context : Variable) (em : Emission Variable) : Prop where
  bindings : em.elements.BindingsGrounded D context
  filters : em.value = context ∨ em.elements.FiltersGrounded D context

end Emission

/-- Whether the element binds or filters by something that reads the variable. -/
def Element.reads (v : Variable) : Element → Bool
  | .bind e _ => v ∈ e.vars
  | .filter e => v ∈ e.vars
  | _ => false

theorem Group.bindingsGrounded_of_not_reads {D : List Quad} {v : Variable} {g : Group}
    (h : ∀ e ∈ g, e.reads v = false) : g.BindingsGrounded D v := by
  intro before e target after heq hv
  have hread := h (.bind e target) (heq ▸ List.mem_append_right _ List.mem_cons_self)
  simp [Element.reads, hv] at hread

/-- What reads the context in patterns only can be matched on its own. -/
theorem Emission.grounded_of_not_reads {D : List Quad} {context : Variable}
    {em : Emission Variable} (h : ∀ e ∈ em.elements, e.reads context = false) :
    em.Grounded D context where
  bindings := Group.bindingsGrounded_of_not_reads h
  filters := by
    refine .inr fun e he hv => ?_
    have hread := h (.filter e) he
    simp [Element.reads, hv] at hread

/-- Alternatives that can be matched on their own have the rows of all branches. -/
theorem Element.step_union {D : List Quad} {v : Variable} {r : Row} (branches : List Group)
    (h : ∀ g ∈ branches, g.BindingsGrounded D v ∧ g.FiltersGrounded D v ∧ g.Joinable v r) :
    Element.step D (.union branches) r = branches.flatMap fun g => Group.found D g r := by
  rw [Element.step]
  induction branches with
  | nil => rfl
  | cons g rest ih =>
    obtain ⟨hbindings, hfilters, hseed⟩ := h g List.mem_cons_self
    rw [Element.branchSteps, List.filterMap_append, List.flatMap_cons,
      ih fun g' hg' => h g' (List.mem_cons_of_mem _ hg'),
      Group.found_eq_meet hbindings hfilters hseed]
    rfl

theorem Element.holdAll_eq_true_iff {D : List Quad} {g : Group} {x : Row} :
    Element.holdAll D g x = true ↔
      ∀ e, .filter e ∈ g → truth? (Expr.value? D e x) = some true := by
  induction g with
  | nil => simp [Element.holdAll]
  | cons e rest ih =>
    rw [Element.holdAll, Bool.and_eq_true, ih]
    cases e <;> simp [Element.hold]

namespace Group

variable {D : List Quad} {v : Variable} {g : Group}

theorem bindingsGrounded_of_bindless (h : ∀ e w, .bind e w ∉ g) : g.BindingsGrounded D v := by
  intro before e target after hg
  exact absurd (hg ▸ List.mem_append_right _ List.mem_cons_self) (h e target)

/-- Bindings of a second group may rely on what the first one binds. -/
theorem BindingsGrounded.append {g' : Group} (hg : g.BindingsGrounded D v)
    (hg' : ∀ before e target after, g' = before ++ .bind e target :: after → v ∈ e.vars →
      ∀ r ∈ Element.steps D (g ++ before) .empty, (r.value? v).isSome) :
    Group.BindingsGrounded D v (g ++ g') := by
  intro before e target after heq
  rcases List.append_eq_append_iff.1 heq with ⟨middle, rfl, htail⟩ | ⟨middle, rfl, htail⟩
  · exact hg' middle e target after htail
  · cases middle with
    | nil =>
      have h := hg' [] e target after (by simpa using htail.symm)
      simpa using h
    | cons e' rest =>
      obtain ⟨rfl, -⟩ := List.cons.inj htail
      exact hg before e target rest rfl

theorem BindingsGrounded.of_append {g' : Group} (h : Group.BindingsGrounded D v (g ++ g')) :
    g.BindingsGrounded D v := fun before e target after heq =>
  h before e target (after ++ g') (by simp [heq])

theorem found_of_filterless (h : ∀ e, .filter e ∉ g) (r : Row) :
    Group.found D g r = Element.steps D g r :=
  List.filter_eq_self.2 fun _ _ => Element.holdAll_eq_true_iff.2 fun e he => absurd he (h e)

end Group

namespace Compile

open Emit

variable {D : List Quad} {context : Variable}

attribute [local irreducible] Allocator.fresh

private theorem mem_step_anyResource {a : Allocator} {r x : Row} :
    x ∈ Element.step D (anyResource context a) r ↔ ∃ q ∈ D,
      TriplePattern.unify ⟨.var context, .var a.fresh.1, .var a.fresh.2.fresh.1⟩ r q = some x ∨
      TriplePattern.unify ⟨.var a.fresh.2.fresh.2.fresh.1, .var a.fresh.2.fresh.2.fresh.2.fresh.1,
        .var context⟩ r q = some x := by
  -- a single pattern matches on its own what it matches from the row
  have hpattern : ∀ (t : TriplePattern) (q : Quad),
      ((t.unify .empty q).bind r.meet? = some x) ↔ t.unify r q = some x := fun t q => by
    rw [← TriplePattern.meet?_bind_unify, Row.meet?_empty, Option.bind_some]
  simp only [anyResource, Element.step, Element.branchSteps, Element.steps, Element.holdAll,
    Element.hold, Element.ofTriple, List.flatMap_singleton', Bool.and_self, List.filter_true,
    List.append_nil, List.filterMap_append, List.filterMap_filterMap, List.mem_append,
    List.mem_filterMap, hpattern]
  grind

private theorem exists_storedIn_of_mem_step_anyResource {a : Allocator} {r x : Row}
    (hx : x ∈ Element.step D (anyResource context a) r) :
    ∃ n, x.value? context = some n ∧ n.StoredIn D := by
  obtain ⟨q, hmem, hq | hq⟩ := mem_step_anyResource.1 hx
  · exact ⟨.iri q.subject, (TriplePattern.standsFor_of_unify hq).1, q, hmem, .inl rfl⟩
  · exact ⟨q.object, (TriplePattern.standsFor_of_unify hq).2.2, q, hmem, .inr rfl⟩

theorem isSome_of_mem_step_anyResource {a : Allocator} {r x : Row}
    (hx : x ∈ Element.step D (anyResource context a) r) : (x.value? context).isSome := by
  obtain ⟨n, hn, -⟩ := exists_storedIn_of_mem_step_anyResource hx
  exact Option.isSome_of_eq_some hn

theorem fresh_ne_fresh (a : Allocator) : a.fresh.1 ≠ a.fresh.2.fresh.1 := fun h =>
  a.fresh_not_pending (h ▸ a.fresh.2.fresh_pending)

private theorem exists_mem_step_anyResource {a : Allocator} {r : Row} {c : Node} (hr : r.Avoids a)
    (hc : r.value? context = some c) (hstored : c.StoredIn D) :
    ∃ x, x ∈ Element.step D (anyResource context a) r := by
  -- two unbound variables of a pattern can be given any values
  have hopen : ∀ {p o : Variable} (m n : Node), r.value? p = none → r.value? o = none → p ≠ o →
      ∃ r', r.Below r' ∧ r'.value? context = some c ∧ r'.value? p = some m ∧
        r'.value? o = some n := by
    intro p o m n hp ho hne
    have ho' : (r.bind p m).value? o = none := by simp [hne.symm, ho]
    have hbelow := (Row.below_bind hp).trans (Row.below_bind (n := n) ho')
    exact ⟨(r.bind p m).bind o n, hbelow, hbelow context c hc, by simp [hne], by simp⟩
  obtain ⟨q, hq, rfl | rfl⟩ := hstored
  · obtain ⟨r', hbelow, hcontext, hp, ho⟩ := hopen (.iri q.predicate) q.object
      (hr _ a.fresh_pending) (hr _ (a.precedes_fresh _ a.fresh.2.fresh_pending))
      (fresh_ne_fresh a)
    obtain ⟨x, hx, -⟩ := TriplePattern.exists_unify
      (t := ⟨.var context, .var a.fresh.1, .var a.fresh.2.fresh.1⟩) hbelow ⟨hcontext, hp, ho⟩
    exact ⟨x, mem_step_anyResource.2 ⟨q, hq, .inl hx⟩⟩
  · have hlater := a.precedes_fresh.trans a.fresh.2.precedes_fresh
    obtain ⟨r', hbelow, hcontext, hs, hp⟩ := hopen (.iri q.subject) (.iri q.predicate)
      (hr _ (hlater _ (Allocator.fresh_pending _)))
      (hr _ (hlater _ (Allocator.precedes_fresh _ _ (Allocator.fresh_pending _))))
      (fresh_ne_fresh a.fresh.2.fresh.2)
    obtain ⟨x, hx, -⟩ := TriplePattern.exists_unify
      (t := ⟨.var a.fresh.2.fresh.2.fresh.1, .var a.fresh.2.fresh.2.fresh.2.fresh.1,
        .var context⟩) hbelow ⟨hs, hp, hcontext⟩
    exact ⟨x, mem_step_anyResource.2 ⟨q, hq, .inr hx⟩⟩

theorem steps_bind_var {v w : Variable} {x : Row} (hw : x.value? w = none) :
    Element.steps D [.bind (.var v) w] x = [((x.value? v).map (x.bind w)).getD x] := by
  cases hv : x.value? v <;>
    simp [Element.steps, Element.step, Expr.var, Expr.value?, Term.value?, hw, hv]

/-- What was compiled from a context, an output that was taken after it, and the allocator with
which it is closed as a branch. -/
structure Branch (context output : Variable) (a b : Allocator) (em : Emission Variable) : Prop where
  tidy : em.elements.Tidy (· = context) a em.allocator
  value : em.value = context ∨ a.Spent em.allocator em.value
  known : ¬ a.Pending context
  pending : em.allocator.Pending output
  later : em.allocator.Precedes b
  taken : ¬ b.Pending output

namespace Branch

variable {output : Variable} {a b : Allocator} {em : Emission Variable}

private theorem context_not_pending (h : Branch context output a b em) :
    ¬ em.allocator.Pending context :=
  fun hc => h.known (h.tidy.later _ hc)

theorem output_ne_context (h : Branch context output a b em) : output ≠ context := by
  rintro rfl
  exact h.context_not_pending h.pending

theorem not_mem_vars (h : Branch context output a b em) {v : Variable}
    (hv : em.allocator.Pending v) : v ∉ em.elements.vars := by
  intro hmem
  rcases h.tidy.written v hmem with rfl | hspent
  · exact h.context_not_pending hv
  · exact hspent.2 hv

theorem output_not_mem_anyResource (h : Branch context output a b em) :
    output ∉ (anyResource context b).vars := by
  intro hmem
  rcases mem_anyResource_vars hmem with heq | hspent
  · exact h.output_ne_context heq
  · exact h.taken hspent.1

private theorem closing_output (h : Branch context output a b em) {x : Row} {c : Node}
    (hx : x.Avoids em.allocator) (hc : x.value? context = some c) (n : Node) :
    (∃ y ∈ Element.steps D (closing context output em.value b).1 x, y.value? output = some n) ↔
      x.value? em.value = some n ∧ (em.value = context → n.StoredIn D) := by
  have hbind : ∀ y : Row, y.value? output = none → ((∃ z ∈ Element.steps D
      [.bind (.var em.value) output] y, z.value? output = some n) ↔
        y.value? em.value = some n) := by
    intro y hy
    rw [steps_bind_var hy]
    cases y.value? em.value <;> simp [hy]
  have hany : ∀ y ∈ Element.step D (anyResource context b) x,
      y.value? output = none ∧ y.value? context = some c := by
    intro y hy
    have hgrows := Element.step_grows hy
    rw [hgrows.outside output h.output_not_mem_anyResource]
    exact ⟨hx output h.pending, hgrows.below context c hc⟩
  unfold closing
  split
  · next hvalue =>
    simp only [Element.steps, List.mem_flatMap] at hbind ⊢
    constructor
    · rintro ⟨z, ⟨y, hy, hz⟩, hn⟩
      have hyn := (hbind y (hany y hy).1).1 ⟨z, hz, hn⟩
      rw [hvalue, (hany y hy).2] at hyn
      obtain ⟨m, hm, hstored⟩ := exists_storedIn_of_mem_step_anyResource hy
      rw [(hany y hy).2, hyn] at hm
      exact ⟨by rw [hvalue, hc, hyn], fun _ => Option.some.inj hm ▸ hstored⟩
    · rintro ⟨hn, hstored⟩
      rw [hvalue] at hn
      obtain ⟨y, hy⟩ := exists_mem_step_anyResource (hx.later h.later) hn (hstored hvalue)
      rw [hc, ← (hany y hy).2, ← hvalue] at hn
      obtain ⟨z, hz, hzn⟩ := (hbind y (hany y hy).1).2 hn
      exact ⟨z, ⟨y, hy, hz⟩, hzn⟩
  · next hvalue =>
    rw [hbind x (hx output h.pending)]
    simp [hvalue]

private theorem closing_keeps (h : Branch context output a b em) {x y : Row} {c : Node}
    (hc : x.value? context = some c)
    (hy : y ∈ Element.steps D (closing context output em.value b).1 x) {v : Variable}
    (hv : v ∈ em.elements.vars) : y.value? v = x.value? v := by
  have hout : v ≠ output := by
    rintro rfl
    exact h.not_mem_vars h.pending hv
  have hgrows := Element.steps_grows hy
  unfold closing at hy hgrows
  split at hy
  · next hvalue =>
    rw [if_pos hvalue] at hgrows
    by_cases hvc : v = context
    · rw [hvc, hc]
      exact hgrows.below context c hc
    · refine hgrows.outside v ?_
      simp only [Element.groupVars, Element.vars, Expr.var, Expr.vars, Term.vars, List.append_nil,
        List.mem_append, List.mem_singleton, not_or]
      refine ⟨fun hmem => ?_, hvalue ▸ hvc, hout⟩
      have hspent := (mem_anyResource_vars hmem).resolve_left hvc
      exact h.not_mem_vars (h.later v hspent.1) hv
  · simp only [Element.steps, List.flatMap_singleton'] at hy
    exact (Element.step_bind_grows hy).outside v (by simpa using hout)

/-- The closed branch has the output values that the branch offers. -/
theorem closed_values (h : Branch context output a b em) {r : Row} {c : Node} (hr : r.Avoids a)
    (hc : r.value? context = some c) (n : Node) :
    (∃ y ∈ Group.found D (em.elements ++ (closing context output em.value b).1) r,
      y.value? output = some n) ↔ n ∈ em.offered D context r := by
  have hcontext : ∀ x ∈ Element.steps D em.elements r, x.value? context = some c :=
    fun x hx => (Element.steps_grows hx).below context c hc
  have hfilterless : ∀ e, .filter e ∉ (closing context output em.value b).1 := by
    intro e
    unfold closing
    split <;> simp [anyResource]
  rw [Group.found_append fun x hx y hy v hv => h.closing_keeps (hcontext x hx) hy hv]
  simp only [List.mem_flatMap, Group.found_of_filterless hfilterless, Emission.mem_offered,
    Emission.mem_values]
  constructor
  · rintro ⟨y, ⟨x, hx, hy⟩, hn⟩
    have hx' := List.mem_of_mem_filter hx
    obtain ⟨hxn, hstored⟩ :=
      (h.closing_output (h.tidy.avoids h.known hr hx') (hcontext x hx') n).1 ⟨y, hy, hn⟩
    exact ⟨⟨x, hx, hxn⟩, hstored⟩
  · rintro ⟨⟨x, hx, hn⟩, hstored⟩
    have hx' := List.mem_of_mem_filter hx
    obtain ⟨y, hy, hyn⟩ :=
      (h.closing_output (h.tidy.avoids h.known hr hx') (hcontext x hx') n).2 ⟨hn, hstored⟩
    exact ⟨y, ⟨x, hx, hy⟩, hyn⟩

private theorem closed_joinable (h : Branch context output a b em) {r : Row} (hr : r.Avoids a) :
    Group.Joinable context (em.elements ++ (closing context output em.value b).1) r := by
  have hjoin := h.tidy.joinable hr
  have hlater := h.tidy.later
  refine ⟨fun w hw hne => ?_, fun e w he => ?_, fun inner hin => ?_⟩
  · rw [Group.vars, Element.groupVars_append, List.mem_append] at hw
    rcases hw with hw | hw
    · exact hjoin.only w hw hne
    · rcases mem_closing_vars hw with (rfl | rfl | rfl) | hspent
      · exact absurd rfl hne
      · exact hr _ (hlater _ h.pending)
      · exact hr _ (h.value.resolve_left hne).1
      · exact hr _ (hlater _ (h.later _ hspent.1))
  · rcases List.mem_append.1 he with he | he
    · exact hjoin.target e w he
    · have hw : w = output := by
        unfold closing at he
        split at he <;> simp_all [anyResource]
      rw [hw]
      exact hr _ (hlater _ h.pending)
  · rcases List.mem_append.1 hin with hin | hin
    · exact hjoin.plain inner hin
    · unfold closing at hin
      split at hin <;> simp [anyResource] at hin

private theorem isSome_of_mem_steps_closing (hvalue : em.value = context) {r x : Row}
    (hx : x ∈ Element.steps D (closing context output em.value b).1 r) :
    (x.value? context).isSome := by
  rw [closing, if_pos hvalue, Element.steps, List.mem_flatMap] at hx
  obtain ⟨y, hy, hx⟩ := hx
  exact (Element.steps_grows hx).below.isSome (isSome_of_mem_step_anyResource hy)

private theorem closed_bindings (hg : em.Grounded D context) :
    Group.BindingsGrounded D context (em.elements ++ (closing context output em.value b).1) := by
  refine hg.bindings.append fun before e target after heq hv x hx => ?_
  unfold closing at heq
  split at heq
  · rw [Element.steps_append, List.mem_flatMap] at hx
    obtain ⟨y, -, hx⟩ := hx
    -- the only binding stands after the match of any resource
    have hbefore : before = [anyResource context b] := by
      rcases before with _ | ⟨e₁, _ | ⟨e₂, rest⟩⟩
      · simp [anyResource] at heq
      · simp_all
      · simp at heq
    rw [hbefore, Element.steps, List.mem_flatMap] at hx
    obtain ⟨z, hz, hx⟩ := hx
    rw [Element.steps, List.mem_singleton] at hx
    rw [hx]
    exact isSome_of_mem_step_anyResource hz
  · next hvalue =>
    have hread : e = .var em.value := by
      rcases before with _ | ⟨e₁, rest⟩
      · simp_all
      · simp at heq
    rw [hread] at hv
    simp only [Expr.var, Expr.vars, Term.vars, List.mem_singleton] at hv
    exact absurd hv.symm hvalue

private theorem closed_filters (hg : em.Grounded D context) :
    Group.FiltersGrounded D context (em.elements ++ (closing context output em.value b).1) := by
  intro e he hv x hx
  rw [Element.steps_append, List.mem_flatMap] at hx
  obtain ⟨y, hy, hx⟩ := hx
  rcases hg.filters with hvalue | hfilters
  · exact isSome_of_mem_steps_closing hvalue hx
  · have he' : .filter e ∈ em.elements := by
      rcases List.mem_append.1 he with he | he
      · exact he
      · unfold closing at he
        split at he <;> simp [anyResource] at he
    exact (Element.steps_grows hx).below.isSome (hfilters e he' hv y hy)

end Branch

section Alternatives

variable {branches : List (Emit Variable)} {a : Allocator} {em : Emission Variable}

theorem alternatives_branches
    (hstays : ∀ m ∈ branches, m.Stays (· = context) fun v => [v])
    (hem : alternatives context branches a = .ok em) (hcontext : ¬ a.Pending context) :
    ∃ ems, List.Forall₂ (fun m em' => ∃ b, m b = .ok em' ∧ a.Precedes b) branches ems ∧
      ∃ groups, em.elements = [.union groups] ∧
        List.Forall₂ (fun em' g => ∃ b b', a.Precedes b ∧ Branch context em.value b b' em' ∧
          g = em'.elements ++ (closing context em.value em'.value b').1) ems groups := by
  obtain ⟨ems, a', hruns, rfl⟩ := alternatives_ok hem
  obtain ⟨hlater, hems⟩ := hruns.forall₂ hstays
  obtain ⟨hclosings, hgroups⟩ := closings_forall₂ context a'.fresh.1 ems a'.fresh.2
  have hcompiled : List.Forall₂ (fun m em' => ∃ b, m b = .ok em' ∧ a.Precedes b) branches ems := by
    refine hems.imp ?_
    rintro m em' ⟨b, hb, hab, -⟩
    exact ⟨b, hb, hab⟩
  refine ⟨ems, hcompiled, _, rfl, ?_⟩
  have hbranch : ∀ em' ∈ ems, ∀ b', a'.fresh.2.Precedes b' →
      ∃ b, a.Precedes b ∧ Branch context a'.fresh.1 b b' em' := by
    intro em' hem' b' hb'
    obtain ⟨m, hm, b, hok, hab, hlast⟩ := exists_of_forall₂_right hems hem'
    obtain ⟨htidy, hvalue⟩ := hstays m hm b em' hok
    exact ⟨b, hab, htidy, hvalue _ (by simp), fun hc => hcontext (hab _ hc),
      hlast _ a'.fresh_pending, (hlast.trans a'.precedes_fresh).trans hb',
      fun hp => a'.fresh_not_pending (hb' _ hp)⟩
  refine ((List.forall₂_and_left ems _).2 ⟨hbranch, hgroups⟩).imp ?_
  rintro em' g ⟨hbranch', b', hb', -, hg⟩
  obtain ⟨b, hab, hbranch''⟩ := hbranch' b' hb'
  exact ⟨b, b', hab, hbranch'', hg⟩

/-- Compiled alternatives have the values that their branches offer, if each of these can be matched
on its own. -/
theorem values_alternatives {r : Row} {c : Node}
    (hstays : ∀ m ∈ branches, m.Stays (· = context) fun v => [v])
    (hem : alternatives context branches a = .ok em) (hr : r.Avoids a)
    (hc : r.value? context = some c)
    (hgrounded : ∀ m ∈ branches, ∀ b em', a.Precedes b → m b = .ok em' →
      em'.Grounded D context) :
    ∃ ems, List.Forall₂ (fun m em' => ∃ b, m b = .ok em' ∧ a.Precedes b) branches ems ∧
      ∀ n, n ∈ em.values D r ↔ ∃ em' ∈ ems, n ∈ em'.offered D context r := by
  obtain ⟨ems, hems, groups, helements, hgroups⟩ :=
    alternatives_branches hstays hem (hr.not_pending hc)
  refine ⟨ems, hems, fun n => ?_⟩
  have hbranch : ∀ em' ∈ ems, em'.Grounded D context := by
    intro em' hem'
    obtain ⟨m, hm, b, hb, hab⟩ := exists_of_forall₂_right hems hem'
    exact hgrounded m hm b em' hab hb
  have hfound : Group.found D em.elements r = groups.flatMap fun g => Group.found D g r := by
    rw [helements, Group.found_of_filterless (by simp), Element.steps]
    simp only [Element.steps, List.flatMap_singleton']
    refine Element.step_union (v := context) groups fun g hg => ?_
    obtain ⟨em', hem', b, b', hab, hbranch', rfl⟩ := exists_of_forall₂_right hgroups hg
    have hg := hbranch em' hem'
    exact ⟨Branch.closed_bindings hg, Branch.closed_filters hg,
      hbranch'.closed_joinable (hr.later hab)⟩
  have hgroup : (∃ em' ∈ ems, n ∈ em'.offered D context r) ↔
      ∃ g ∈ groups, ∃ row ∈ Group.found D g r, row.value? em.value = some n := by
    refine exists_mem_iff_of_forall₂ hgroups ?_
    rintro em' g ⟨b, b', hab, hbranch', rfl⟩
    exact (hbranch'.closed_values (hr.later hab) hc n).symm
  rw [hgroup, Emission.mem_values, hfound]
  simp only [List.mem_flatMap]
  constructor
  · rintro ⟨row, ⟨g, hg, hrow⟩, hn⟩
    exact ⟨g, hg, row, hrow, hn⟩
  · rintro ⟨g, hg, row, hrow, hn⟩
    exact ⟨row, ⟨g, hg, hrow⟩, hn⟩

end Alternatives

end Compile

end GraphPath
