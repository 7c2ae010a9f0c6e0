import GraphPath.Proofs.Alternatives

/-!
# What compiled navigation follows

A compiled step follows a relation between nodes if, from a context whose value is stored, its
values are those to which the relation leads. The statement that is carried through a selector says
more: wherever the compiled group is matched, also on its own, it gives a value to its context and
to its output, unless both are one variable. So its filters may be deferred, it may stand in a
branch, and another part may be compiled from its output.
-/

namespace GraphPath

open Emit Compile

attribute [local irreducible] Allocator.fresh

/-- What was compiled from a context follows a relation between nodes. -/
structure Emission.Traces (D : List Quad) (R : Node → Node → Prop) (context : Variable)
    (a : Allocator) (em : Emission Variable) : Prop where
  bindless : ∀ e w, .bind e w ∉ em.elements
  binds : em.value = context ∨ ∀ r, ∀ x ∈ Element.steps D em.elements r,
    (x.value? context).isSome ∧ (x.value? em.value).isSome
  values : ∀ r c, r.Avoids a → r.value? context = some c → c.StoredIn D →
    ∀ n, n ∈ em.values D r ↔ R c n

/-- Compiled from a context, the step follows a relation between nodes. -/
def Emit.Traces (D : List Quad) (R : Node → Node → Prop) (context : Variable)
    (m : Emit Variable) : Prop :=
  ∀ a em, ¬ a.Pending context → m a = .ok em → em.Traces D R context a

section Relations

variable {D : List Quad} {R S : Node → Node → Prop} {context : Variable}

theorem Emission.Traces.isSome {a : Allocator} {em : Emission Variable}
    (h : em.Traces D R context a) {r x : Row} {c : Node} (hc : r.value? context = some c)
    (hx : x ∈ Element.steps D em.elements r) : (x.value? em.value).isSome := by
  rcases h.binds with hvalue | hbinds
  · rw [hvalue]
    exact Option.isSome_of_eq_some ((Element.steps_grows hx).below context c hc)
  · exact (hbinds r x hx).2

private theorem Emission.Traces.grounded {a : Allocator} {em : Emission Variable}
    (h : em.Traces D R context a) : em.Grounded D context where
  bindings := Group.bindingsGrounded_of_bindless h.bindless
  filters := h.binds.imp_right fun hbinds _ _ _ x hx => (hbinds .empty x hx).1

private theorem Emission.Traces.mem_offered {a : Allocator} {em : Emission Variable}
    (h : em.Traces D R context a) {r : Row} {c : Node} (hr : r.Avoids a)
    (hc : r.value? context = some c) (hstored : c.StoredIn D) (n : Node) :
    n ∈ em.offered D context r ↔ R c n := by
  rw [Emission.mem_offered, h.values r c hr hc hstored n, and_iff_left_iff_imp]
  intro hn hvalue
  obtain ⟨x, hx, hxn⟩ := (h.values r c hr hc hstored n).2 hn
  rw [hvalue, (Group.found_grows hx).below context c hc] at hxn
  exact Option.some.inj hxn ▸ hstored

theorem Emission.Traces.exists_value {a : Allocator} {em : Emission Variable}
    (h : em.Traces D R context a) {r x : Row} {c : Node} (hr : r.Avoids a)
    (hc : r.value? context = some c) (hstored : c.StoredIn D)
    (hx : x ∈ Group.found D em.elements r) : ∃ n, x.value? em.value = some n ∧ R c n := by
  obtain ⟨n, hn⟩ := Option.isSome_iff_exists.1 (h.isSome hc (List.mem_of_mem_filter hx))
  exact ⟨n, hn, (h.values r c hr hc hstored n).1 ⟨x, hx, hn⟩⟩

theorem traces_done : (done context).Traces D (fun c v => v = c) context := by
  rintro a em - ⟨⟩
  refine ⟨by simp, .inl rfl, fun r c _ hc _ n => ?_⟩
  simp [Emission.mem_values, Group.found, Element.steps, Element.holdAll, hc, eq_comm]

theorem Emit.Stays.value_not_pending {m : Emit Variable} (hm : m.Stays (· = context) fun v => [v])
    {a : Allocator} {em : Emission Variable} (hcontext : ¬ a.Pending context)
    (hem : m a = .ok em) : ¬ em.allocator.Pending em.value := by
  obtain ⟨htidy, hvalue⟩ := hm a em hem
  rcases hvalue em.value (by simp) with heq | hspent
  · rw [heq]
    exact fun hc => hcontext (htidy.later _ hc)
  · exact hspent.2

theorem Emission.Traces.found_append {a a' : Allocator} {em : Emission Variable} {g : Group}
    (h : em.Traces D R context a) (htidy : em.elements.Tidy (· = context) a em.allocator)
    (hg : g.Tidy (fun v => v = context ∨ v ∈ [em.value]) em.allocator a') {r : Row} {c : Node}
    (hc : r.value? context = some c) :
    Group.found D (em.elements ++ g) r =
      (Group.found D em.elements r).flatMap (Group.found D g) := by
  refine htidy.found_append hg hc ?_
  rintro x hx v (rfl | hv)
  · exact Option.isSome_of_eq_some ((Element.steps_grows hx).below v c hc)
  · rw [List.mem_singleton.1 hv]
    exact h.isSome hc hx

/-- One step from the output of another: the relations are composed. -/
theorem Emit.Traces.bind {m : Emit Variable} {f : Variable → Emit Variable}
    (hm : m.Stays (· = context) fun v => [v]) (hf : ∀ v, (f v).Stays (· = v) fun v => [v])
    (hR : m.Traces D R context) (hS : ∀ v, (f v).Traces D S v)
    (hclosed : ∀ c v, c.StoredIn D → R c v → v.StoredIn D) :
    (m >>= f).Traces D (fun c v => ∃ w, R c w ∧ S w v) context := by
  intro a em hcontext hem
  obtain ⟨first, second, hfirst, hsecond, rfl⟩ := bind_ok hem
  have hvalue := hm.value_not_pending hcontext hfirst
  have hR := hR a first hcontext hfirst
  have hS := hS first.value first.allocator second hvalue hsecond
  have htidy := (hm a first hfirst).1
  have htidy' := (hf first.value first.allocator second hsecond).1
  refine ⟨?_, ?_, fun r c hr hc hstored n => ?_⟩
  · simp only [List.mem_append, not_or]
    exact fun e w => ⟨hR.bindless e w, hS.bindless e w⟩
  · -- if the outputs do not both fall back on the context, one of the parts binds it
    simp only [Element.steps_append, List.mem_flatMap]
    rcases hR.binds with hfirst | hfirst
    · rw [hfirst] at hS
      refine hS.binds.imp_right fun hbinds => ?_
      rintro r x ⟨y, -, hx⟩
      exact hbinds y x hx
    · right
      rintro r x ⟨y, hy, hx⟩
      have hgrows := Element.steps_grows hx
      obtain ⟨hyc, hyv⟩ := hfirst r y hy
      refine ⟨hgrows.below.isSome hyc, ?_⟩
      rcases hS.binds with hsecond | hsecond
      · rw [hsecond]
        exact hgrows.below.isSome hyv
      · exact (hsecond y x hx).2
  · have hknown : second.elements.Tidy (fun v => v = context ∨ v ∈ [first.value])
        first.allocator second.allocator := htidy'.mono (by simp)
    simp only [Emission.mem_values, hR.found_append htidy hknown hc, List.mem_flatMap]
    constructor
    · rintro ⟨y, ⟨x, hx, hy⟩, hn⟩
      obtain ⟨w, hw, hRw⟩ := hR.exists_value hr hc hstored hx
      have hx' := htidy.avoids hcontext hr (List.mem_of_mem_filter hx)
      exact ⟨w, hRw, (hS.values x w hx' hw (hclosed c w hstored hRw) n).1 ⟨y, hy, hn⟩⟩
    · rintro ⟨w, hRw, hSn⟩
      obtain ⟨x, hx, hw⟩ := (hR.values r c hr hc hstored w).2 hRw
      have hx' := htidy.avoids hcontext hr (List.mem_of_mem_filter hx)
      obtain ⟨y, hy, hn⟩ := (hS.values x w hx' hw (hclosed c w hstored hRw) n).2 hSn
      exact ⟨y, ⟨x, hx, hy⟩, hn⟩

theorem traces_iterate {f : Variable → Emit Variable} (hf : ∀ v, (f v).Stays (· = v) fun v => [v])
    (hR : ∀ v, (f v).Traces D R v) (hclosed : ∀ c v, c.StoredIn D → R c v → v.StoredIn D)
    (k : Nat) : (iterate f k context).Traces D (Repeated R k) context := by
  induction k generalizing context with
  | zero => exact traces_done
  | succ k ih =>
    exact Emit.Traces.bind (hf context) (stays_iterate hf k) (hR context) (fun v => ih) hclosed

/-- The values of a single pattern are those of the rows above the seed in which the pattern stands
for a statement. -/
theorem exists_found_triple_iff {t : TriplePattern} {output : Variable} {r : Row} {n : Node}
    (houtput : output ∈ t.vars) :
    (∃ x ∈ Group.found D [.triple t] r, x.value? output = some n) ↔
      ∃ q ∈ D, ∃ r', r.Below r' ∧ t.StandsFor r' q ∧ r'.value? output = some n := by
  rw [Group.found_of_filterless (by simp)]
  simp only [Element.steps, Element.step, List.flatMap_singleton', List.mem_filterMap]
  constructor
  · rintro ⟨x, ⟨q, hq, hx⟩, hn⟩
    exact ⟨q, hq, x, (TriplePattern.unify_grows hx).below,
      TriplePattern.standsFor_of_unify hx, hn⟩
  · rintro ⟨q, hq, r', hbelow, hstands, hn⟩
    obtain ⟨x, hx, hx'⟩ := TriplePattern.exists_unify hbelow hstands
    have hsome := (TriplePattern.standsFor_of_unify hx).isSome houtput
    obtain ⟨m, hm⟩ := Option.isSome_iff_exists.1 hsome
    have hmn : m = n := Option.some.inj ((hx' output m hm).symm.trans hn)
    exact ⟨x, ⟨q, hq, hx⟩, hmn ▸ hm⟩

private theorem Emission.traces_triple {a : Allocator} {em : Emission Variable} {t : TriplePattern}
    (helements : em.elements = [.triple t]) (hcontext : context ∈ t.vars)
    (hvalue : em.value ∈ t.vars)
    (hR : ∀ (r : Row) c, r.Avoids a → r.value? context = some c → ∀ n,
      (∃ q ∈ D, ∃ r', r.Below r' ∧ t.StandsFor r' q ∧ r'.value? em.value = some n) ↔ R c n) :
    em.Traces D R context a := by
  refine ⟨by simp [helements], .inr fun r x hx => ?_, fun r c hr hc _ n => ?_⟩
  · simp only [helements, Element.steps, Element.step, List.flatMap_singleton',
      List.mem_filterMap] at hx
    obtain ⟨q, -, hx⟩ := hx
    have hstands := TriplePattern.standsFor_of_unify hx
    exact ⟨hstands.isSome hcontext, hstands.isSome hvalue⟩
  · rw [Emission.mem_values, helements, exists_found_triple_iff hvalue]
    exact hR r c hr hc n

theorem traces_alongProperty (p : Iri) :
    (alongProperty p context).Traces D
      (fun c v => ∃ q ∈ D, c = .iri q.subject ∧ q.predicate = p ∧ v = q.object) context := by
  intro a em hcontext hem
  rw [alongProperty_apply] at hem
  obtain rfl := Except.ok.inj hem
  refine Emission.traces_triple rfl (by simp [TriplePattern.vars, Term.vars])
    (by simp [TriplePattern.vars, Term.vars]) fun r c hr hc n => ?_
  have hne : context ≠ a.fresh.1 := fun h => hcontext (h ▸ a.fresh_pending)
  constructor
  · rintro ⟨q, hq, r', hbelow, ⟨hs, hp, ho⟩, hn⟩
    exact ⟨q, hq, Option.some.inj ((hbelow context c hc).symm.trans hs),
      by simpa [Term.iri, Term.value?, eq_comm] using hp, Option.some.inj (hn.symm.trans ho)⟩
  · rintro ⟨q, hq, rfl, rfl, rfl⟩
    refine ⟨q, hq, r.bind a.fresh.1 q.object, Row.below_bind (hr _ a.fresh_pending), ?_, by simp⟩
    simp [TriplePattern.StandsFor, Term.value?, Term.iri, hne, hc]

theorem traces_againstProperty (p : Iri) :
    (againstProperty p context).Traces D
      (fun c v => ∃ q ∈ D, v = .iri q.subject ∧ q.predicate = p ∧ c = q.object) context := by
  intro a em hcontext hem
  rw [againstProperty_apply] at hem
  obtain rfl := Except.ok.inj hem
  refine Emission.traces_triple rfl (by simp [TriplePattern.vars, Term.vars])
    (by simp [TriplePattern.vars, Term.vars]) fun r c hr hc n => ?_
  have hne : context ≠ a.fresh.1 := fun h => hcontext (h ▸ a.fresh_pending)
  constructor
  · rintro ⟨q, hq, r', hbelow, ⟨hs, hp, ho⟩, hn⟩
    exact ⟨q, hq, Option.some.inj (hn.symm.trans hs),
      by simpa [Term.iri, Term.value?, eq_comm] using hp,
      Option.some.inj ((hbelow context c hc).symm.trans ho)⟩
  · rintro ⟨q, hq, rfl, rfl, rfl⟩
    refine ⟨q, hq, r.bind a.fresh.1 (.iri q.subject), Row.below_bind (hr _ a.fresh_pending), ?_,
      by simp⟩
    simp [TriplePattern.StandsFor, Term.value?, Term.iri, hne, hc]

theorem traces_alongAny :
    (alongAny context).Traces D (fun c v => ∃ q ∈ D, c = .iri q.subject ∧ v = q.object)
      context := by
  intro a em hcontext hem
  rw [alongAny_apply] at hem
  obtain rfl := Except.ok.inj hem
  refine Emission.traces_triple rfl (by simp [TriplePattern.vars, Term.vars])
    (by simp [TriplePattern.vars, Term.vars]) fun r c hr hc n => ?_
  have hpending := a.precedes_fresh _ a.fresh.2.fresh_pending
  have hne : context ≠ a.fresh.1 := fun h => hcontext (h ▸ a.fresh_pending)
  have hne' : context ≠ a.fresh.2.fresh.1 := fun h => hcontext (h ▸ hpending)
  constructor
  · rintro ⟨q, hq, r', hbelow, ⟨hs, -, ho⟩, hn⟩
    exact ⟨q, hq, Option.some.inj ((hbelow context c hc).symm.trans hs),
      Option.some.inj (hn.symm.trans ho)⟩
  · rintro ⟨q, hq, rfl, rfl⟩
    have hfirst : (r.bind a.fresh.1 (.iri q.predicate)).value? a.fresh.2.fresh.1 = none := by
      simp [(fresh_ne_fresh a).symm, hr _ hpending]
    refine ⟨q, hq, (r.bind a.fresh.1 (.iri q.predicate)).bind a.fresh.2.fresh.1 q.object,
      (Row.below_bind (hr _ a.fresh_pending)).trans (Row.below_bind hfirst), ?_, by simp⟩
    simp [TriplePattern.StandsFor, Term.value?, hne, hne', fresh_ne_fresh, hc]

private theorem Compile.Branch.closed_binds {output : Variable} {a a' b : Allocator}
    {em : Emission Variable} (h : Branch context output a b em)
    (htraces : em.Traces D R context a') {x : Row}
    (hx : x ∈ Element.steps D (em.elements ++ (closing context output em.value b).1) .empty) :
    (x.value? context).isSome ∧ (x.value? output).isSome := by
  rw [Element.steps_append, List.mem_flatMap] at hx
  obtain ⟨y, hy, hx⟩ := hx
  have hyout : y.value? output = none := by
    rw [(Element.steps_grows hy).outside output (h.not_mem_vars h.pending), Row.value?_empty]
  -- the row before the last binding has values for the context and for what the binding reads
  have hlast : ∀ z : Row, z.value? output = none → (z.value? context).isSome →
      (z.value? em.value).isSome → x ∈ Element.steps D [.bind (.var em.value) output] z →
      (x.value? context).isSome ∧ (x.value? output).isSome := by
    intro z hz hcontext hvalue hx
    refine ⟨(Element.steps_grows hx).below.isSome hcontext, ?_⟩
    obtain ⟨n, hn⟩ := Option.isSome_iff_exists.1 hvalue
    rw [steps_bind_var hz, hn] at hx
    simp [List.mem_singleton.1 hx]
  unfold closing at hx
  split at hx
  · next hvalue =>
    rw [Element.steps, List.mem_flatMap] at hx
    obtain ⟨z, hz, hx⟩ := hx
    have hsome := isSome_of_mem_step_anyResource hz
    refine hlast z ?_ hsome (by rwa [hvalue]) hx
    rw [(Element.step_grows hz).outside output h.output_not_mem_anyResource, hyout]
  · next hvalue =>
    obtain ⟨hcontext, hsome⟩ := htraces.binds.resolve_left hvalue .empty y hy
    exact hlast y hyout hcontext hsome hx

/-- Alternatives follow the union of the relations that their branches follow. -/
theorem traces_alternatives {ι : Type} {ks : List ι} {m : ι → Emit Variable}
    {Q : ι → Node → Node → Prop} (hm : ∀ k ∈ ks, (m k).Stays (· = context) fun v => [v])
    (hQ : ∀ k ∈ ks, (m k).Traces D (Q k) context) :
    (alternatives context (ks.map m)).Traces D (fun c v => ∃ k ∈ ks, Q k c v) context := by
  intro a em hcontext hem
  have hstays : ∀ m' ∈ ks.map m, m'.Stays (· = context) fun v => [v] := by
    simpa [List.forall_mem_map] using hm
  have htraces : ∀ k ∈ ks, ∀ b em', a.Precedes b → m k b = .ok em' →
      em'.Traces D (Q k) context b :=
    fun k hk b em' hab hem' => hQ k hk b em' (fun hc => hcontext (hab _ hc)) hem'
  refine ⟨?_, .inr fun r x hx => ?_, fun r c hr hc hstored n => ?_⟩
  · obtain ⟨ems, -, groups, helements, -⟩ := alternatives_branches hstays hem hcontext
    simp [helements]
  · obtain ⟨ems, hems, groups, helements, hgroups⟩ := alternatives_branches hstays hem hcontext
    simp only [helements, Element.steps, List.flatMap_singleton', Element.step,
      List.mem_filterMap] at hx
    obtain ⟨y, hy, hmeet⟩ := hx
    obtain ⟨g, hg, hyg⟩ := Element.mem_branchSteps_iff.1 hy
    obtain ⟨em', hem', b, b', -, hbranch, rfl⟩ := exists_of_forall₂_right hgroups hg
    rw [List.forall₂_map_left_iff] at hems
    obtain ⟨k, hk, b'', hb, hab⟩ := exists_of_forall₂_right hems hem'
    obtain ⟨hyc, hyv⟩ := hbranch.closed_binds (htraces k hk b'' em' hab hb)
      (List.mem_of_mem_filter hyg)
    have hbelow := (Row.meet?_spec hmeet).2.1
    exact ⟨hbelow.isSome hyc, hbelow.isSome hyv⟩
  · obtain ⟨ems, hems, hvalues⟩ := values_alternatives (D := D) hstays hem hr hc (by
      simp only [List.forall_mem_map]
      exact fun k hk b em' hab hem' => (htraces k hk b em' hab hem').grounded)
    rw [List.forall₂_map_left_iff] at hems
    rw [hvalues]
    constructor
    · rintro ⟨em', hem', hn⟩
      obtain ⟨k, hk, b, hb, hab⟩ := exists_of_forall₂_right hems hem'
      exact ⟨k, hk, ((htraces k hk b em' hab hb).mem_offered (hr.later hab) hc hstored n).1 hn⟩
    · rintro ⟨k, hk, hn⟩
      obtain ⟨em', hem', b, hb, hab⟩ := exists_of_forall₂_left hems hk
      exact ⟨em', hem',
        ((htraces k hk b em' hab hb).mem_offered (hr.later hab) hc hstored n).2 hn⟩

@[simp]
theorem truth?_ofTruth (t : Option Bool) : truth? (ofTruth t) = t := by
  rcases t with _ | _ | _ <;> rfl

private theorem Comparison.eq_apply_self {n : Node} (h : n.number? ≠ some .nan) :
    Comparison.eq.apply n n = some true := by
  unfold Comparison.apply
  cases hn : n.number? with
  | none => simp
  | some x =>
    cases x with
    | nan => exact absurd hn h
    | number negative magnitude =>
      simp [Binary64.compare?, Comparison.admits, Std.ReflCmp.compare_self]

private theorem Node.StoredIn.number?_ne_nan {n : Node} (h : n.StoredIn D)
    (hD : ∀ q ∈ D, q.object.number? ≠ some .nan) : n.number? ≠ some .nan := by
  obtain ⟨q, hq, rfl | rfl⟩ := h
  · simp [Node.number?]
  · exact hD q hq

private theorem mem_found_requireSame {l l' : Variable} {g : Group} {x y : Row} {v : Node}
    (hl : ∀ y ∈ Group.found D g x, y.value? l = some v)
    (hl' : ∀ y ∈ Group.found D g x, (y.value? l').isSome)
    (hsame : l = l' → Comparison.eq.apply v v = some true) :
    y ∈ Group.found D (g ++ if l = l' then [] else [.filter (.equals (.var l) (.var l'))]) x ↔
      y ∈ Group.found D g x ∧
        ∃ w, y.value? l' = some w ∧ Comparison.eq.apply v w = some true := by
  split
  · next heq =>
    rw [List.append_nil]
    exact ⟨fun hy => ⟨hy, v, heq ▸ hl y hy, hsame heq⟩, And.left⟩
  · rw [Group.found_filter, List.mem_filter]
    refine and_congr_right fun hy => ?_
    obtain ⟨w, hw⟩ := Option.isSome_iff_exists.1 (hl' y hy)
    simp [Expr.equals, Expr.var, Expr.value?, Term.value?, hl y hy, hw]

/-- Two steps from the same context, one after the other, have one output only if it is the
context. -/
theorem Emit.Stays.value_eq_context {m m' : Emit Variable}
    (hm : m.Stays (· = context) fun v => [v]) (hm' : m'.Stays (· = context) fun v => [v])
    {a : Allocator} {first second : Emission Variable} (hcontext : ¬ a.Pending context)
    (hfirst : m a = .ok first) (hsecond : m' first.allocator = .ok second)
    (heq : first.value = second.value) : first.value = context := by
  rcases (hm' first.allocator second hsecond).2 first.value (by simp [heq]) with hvalue | hspent
  · exact hvalue
  · exact absurd hspent.1 (hm.value_not_pending hcontext hfirst)

theorem traces_intersection {m m' : Emit Variable} (hD : ∀ q ∈ D, q.object.number? ≠ some .nan)
    (hm : m.Stays (· = context) fun v => [v]) (hm' : m'.Stays (· = context) fun v => [v])
    (hR : m.Traces D R context) (hS : m'.Traces D S context) :
    Emit.Traces D (fun c v => R c v ∧ ∃ w, S c w ∧ Comparison.eq.apply v w = some true) context
      (do
        let l ← m
        let l' ← m'
        requireSame l l'
        return l) := by
  have hrest : ∀ l : Variable, Stays (fun v => v = context ∨ v ∈ [l]) (fun v => [v]) (do
      let l' ← m'
      requireSame l l'
      return l) := fun l =>
    (hm'.mono fun v => .inl).bind fun l' =>
      (stays_requireSame (.inl (.inr (by simp))) (.inr (by simp))).bind fun _ =>
        stays_done l (by simp)
  intro a em hcontext hem
  obtain ⟨first, rest, hfirst, hnext, rfl⟩ := bind_ok hem
  have htidy := (hm a first hfirst).1
  have htidy' := (hrest first.value first.allocator rest hnext).1
  obtain ⟨second, last, hsecond, hlast, rfl⟩ := bind_ok hnext
  obtain ⟨same, final, hsame, hfinal, rfl⟩ := bind_ok hlast
  rw [requireSame_apply] at hsame
  obtain rfl := Except.ok.inj hsame
  cases hfinal
  have hcontext' : ¬ first.allocator.Pending context := fun hc => hcontext (htidy.later _ hc)
  have hR := hR a first hcontext hfirst
  have hS := hS first.allocator second hcontext' hsecond
  simp only [List.append_nil] at htidy' ⊢
  refine ⟨fun e w => ?_, ?_, fun r c hr hc hstored n => ?_⟩
  · simp only [List.mem_append, not_or]
    refine ⟨hR.bindless e w, hS.bindless e w, ?_⟩
    split <;> simp
  · refine hR.binds.imp_right fun hbinds r x hx => ?_
    simp only [Element.steps_append, List.mem_flatMap] at hx
    obtain ⟨y, hy, z, hz, hx⟩ := hx
    have hbelow := (Element.steps_grows hz).below.trans (Element.steps_grows hx).below
    exact ⟨hbelow.isSome (hbinds r y hy).1, hbelow.isSome (hbinds r y hy).2⟩
  · have hkept : ∀ x ∈ Group.found D first.elements r, ∀ v, x.value? first.value = some v → ∀ y,
        y ∈ Group.found D (second.elements ++ if first.value = second.value then []
          else [.filter (.equals (.var first.value) (.var second.value))]) x ↔
        y ∈ Group.found D second.elements x ∧
          ∃ w, y.value? second.value = some w ∧ Comparison.eq.apply v w = some true := by
      intro x hx v hv y
      have hxc := (Group.found_grows hx).below context c hc
      refine mem_found_requireSame (fun y hy => (Group.found_grows hy).below _ v hv)
        (fun y hy => hS.isSome hxc (List.mem_of_mem_filter hy)) fun heq => ?_
      have hvc : v = c := by
        rw [hm.value_eq_context hm' hcontext hfirst hsecond heq, hxc] at hv
        exact (Option.some.inj hv).symm
      exact Comparison.eq_apply_self (hvc ▸ hstored.number?_ne_nan hD)
    simp only [Emission.mem_values, hR.found_append htidy htidy' hc, List.mem_flatMap]
    constructor
    · rintro ⟨y, ⟨x, hx, hy⟩, hn⟩
      obtain ⟨v, hv, hRv⟩ := hR.exists_value hr hc hstored hx
      have hyn := (Group.found_grows hy).below _ v hv
      obtain rfl : v = n := Option.some.inj (hyn.symm.trans hn)
      obtain ⟨hy, w, hw, heq⟩ := (hkept x hx v hv y).1 hy
      have hx' := htidy.avoids hcontext hr (List.mem_of_mem_filter hx)
      have hxc := (Group.found_grows hx).below context c hc
      exact ⟨hRv, w, (hS.values x c hx' hxc hstored w).1 ⟨y, hy, hw⟩, heq⟩
    · rintro ⟨hRn, w, hSw, heq⟩
      obtain ⟨x, hx, hn⟩ := (hR.values r c hr hc hstored n).2 hRn
      have hx' := htidy.avoids hcontext hr (List.mem_of_mem_filter hx)
      have hxc := (Group.found_grows hx).below context c hc
      obtain ⟨y, hy, hw⟩ := (hS.values x c hx' hxc hstored w).2 hSw
      exact ⟨y, ⟨x, hx, (hkept x hx n hn y).2 ⟨hy, w, hw, heq⟩⟩,
        (Group.found_grows hy).below _ n hn⟩

end Relations

end GraphPath
