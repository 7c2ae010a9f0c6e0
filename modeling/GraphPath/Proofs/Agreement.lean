import GraphPath.Proofs.Following

/-!
# Tests that agree

Two tests agree if one follows the other as a part of a group and both are true of the same values.
Where a test is negated its verdict has to be the same too, and this is not told by the group: it
counts whether the condition asks for a match or is evaluated as it is. A type may be asked for or
looked up and compared; the rows that have another type are refused by that comparison.
-/

namespace GraphPath

open Emit Compile

/-! ## A type that is looked up first -/

section

variable {D : List Quad} {L : Links} {a b : Allocator} {c c' : Variable}

private theorem Comparison.eq_apply_iri (n : Node) (i : Iri) :
    Comparison.eq.apply n (.iri i) = some (decide (n = .iri i)) := by
  unfold Comparison.apply
  split
  · next h =>
    simp [Node.number?] at h
  · rfl

private theorem TriplePattern.unify_var_object {s p : Term} {v : Variable} {r : Row} {q : Quad}
    (hs : v ∉ s.vars) (hp : v ∉ p.vars) (hv : r.value? v = none) :
    TriplePattern.unify ⟨s, p, .var v⟩ r q =
      (TriplePattern.unify ⟨s, p, .node q.object⟩ r q).map (·.bind v q.object) := by
  unfold TriplePattern.unify
  cases hsubject : s.unify (.iri q.subject) r with
  | none => rfl
  | some r₁ =>
    cases hpredicate : p.unify (.iri q.predicate) r₁ with
    | none => simp [hpredicate]
    | some r₂ =>
      have hnone : r₂.value? v = none := by
        rw [(Term.unify_grows hpredicate).outside v hp, (Term.unify_grows hsubject).outside v hs,
          hv]
      have hvar : (Term.var v).unify q.object r₂ = some (r₂.bind v q.object) := by
        simp [Term.unify, Term.value?, hnone]
      have hnode : (Term.node q.object).unify q.object r₂ = some r₂ := by
        simp [Term.unify, Term.value?]
      simp [hpredicate, hvar, hnode]

/-- The pattern of a type, given as a node. -/
def Element.typed (c : Variable) (type : Node) : Element :=
  .ofTriple (.var c) (.iri Iri.rdfType) (.node type)

/-- A type that is looked up, bound to a variable, and compared. -/
def Group.lookedUp (c : Variable) (i : Iri) (b : Allocator) : Group :=
  [.ofTriple (.var c) (.iri Iri.rdfType) (.var b.fresh.1),
    .bind (.term (.iri i)) b.fresh.2.fresh.1,
    .filter (.equals (.var b.fresh.1) (.var b.fresh.2.fresh.1))]

private theorem Element.mem_steps_typed {type : Node} {r x : Row} :
    x ∈ Element.steps D [.typed c type] r ↔
      ∃ q ∈ D, q.object = type ∧
        TriplePattern.unify ⟨.var c, .iri Iri.rdfType, .node q.object⟩ r q = some x := by
  have hsteps : Element.steps D [.typed c type] r =
      D.filterMap (TriplePattern.unify ⟨.var c, .iri Iri.rdfType, .node type⟩ r) := by
    simp [Element.steps, Element.step, Element.typed, Element.ofTriple]
  rw [hsteps, List.mem_filterMap]
  constructor
  · rintro ⟨q, hq, hx⟩
    have hobject : q.object = type :=
      (Option.some.inj (TriplePattern.standsFor_of_unify hx).2.2).symm
    exact ⟨q, hq, hobject, hobject ▸ hx⟩
  · rintro ⟨q, hq, rfl, hx⟩
    exact ⟨q, hq, hx⟩

private theorem Group.mem_steps_lookedUp {i : Iri} {r x : Row} (hc : ¬ b.Pending c)
    (hr : r.Avoids b) :
    x ∈ Element.steps D (Group.lookedUp c i b) r ↔ ∃ type, ∃ y ∈ Element.steps D [.typed c type] r,
      x = (y.put b.fresh.1 (some type)).put b.fresh.2.fresh.1 (some (.iri i)) := by
  have hpending := b.fresh_pending
  have hpending' := b.precedes_fresh _ b.fresh.2.fresh_pending
  have hne : b.fresh.1 ≠ c := fun heq => hc (heq ▸ hpending)
  have hne' : b.fresh.2.fresh.1 ≠ c := fun heq => hc (heq ▸ hpending')
  have hunify (q : Quad) := TriplePattern.unify_var_object (s := .var c) (p := .iri Iri.rdfType)
    (q := q) (by simpa [Term.vars] using hne) (by simp [Term.iri, Term.vars]) (hr _ hpending)
  -- The variable for the type that is asked for is not bound when the type has been looked up.
  have hnone : ∀ type, ∀ y ∈ Element.steps D [.typed c type] r,
      (y.put b.fresh.1 (some type)).value? b.fresh.2.fresh.1 = none := by
    intro type y hy
    have houtside : ∀ v, v ≠ c → y.value? v = r.value? v := by
      intro v hv
      refine (Element.steps_grows hy).outside v ?_
      simpa [Element.groupVars, Element.typed, Element.ofTriple, Element.vars, TriplePattern.vars,
        Term.vars, Term.iri] using hv
    have hy' : y.Avoids b := fun v hv => by
      rw [houtside v fun heq => hc (heq ▸ hv), hr v hv]
    exact Row.avoids_put hy' b.precedes_fresh b.fresh_spent _ _ b.fresh.2.fresh_pending
  have hrest : ∀ y : Row, y.value? b.fresh.2.fresh.1 = none → Element.steps D
      [.bind (.term (.iri i)) b.fresh.2.fresh.1,
        .filter (.equals (.var b.fresh.1) (.var b.fresh.2.fresh.1))] y =
      [y.put b.fresh.2.fresh.1 (some (.iri i))] := by
    intro y hy
    have hbind := Element.steps_bind (D := D) (e := .term (.iri i)) hy
    rw [← List.singleton_append, Element.steps_append, hbind]
    simp [Element.steps, Element.step, Expr.value?, Term.iri, Term.value?]
  rw [Group.lookedUp, ← List.singleton_append, Element.steps_append, List.mem_flatMap]
  constructor
  · rintro ⟨y, hy, hx⟩
    have hy' : ∃ q ∈ D, TriplePattern.unify ⟨.var c, .iri Iri.rdfType, .var b.fresh.1⟩ r q =
        some y := by
      simpa [Element.steps, Element.step, Element.ofTriple] using hy
    obtain ⟨q, hq, hunified⟩ := hy'
    rw [hunify, Option.map_eq_some_iff] at hunified
    obtain ⟨y₁, hy₁, rfl⟩ := hunified
    have hmem := Element.mem_steps_typed.2 ⟨q, hq, rfl, hy₁⟩
    have hnext := hrest _ (hnone q.object y₁ hmem)
    rw [Row.put] at hnext
    rw [hnext, List.mem_singleton] at hx
    exact ⟨q.object, y₁, hmem, hx⟩
  · rintro ⟨type, y, hy, rfl⟩
    have hnext := hrest _ (hnone type y hy)
    obtain ⟨q, hq, rfl, hunified⟩ := Element.mem_steps_typed.1 hy
    refine ⟨y.put b.fresh.1 (some q.object), ?_, by rw [hnext, List.mem_singleton]⟩
    have hmem : ∃ q' ∈ D, TriplePattern.unify ⟨.var c, .iri Iri.rdfType, .var b.fresh.1⟩ r q' =
        some (y.put b.fresh.1 (some q.object)) :=
      ⟨q, hq, by rw [hunify, hunified]; rfl⟩
    simpa [Element.steps, Element.step, Element.ofTriple] using hmem

theorem Group.Follows.typed (hL : L.Sound a b) (hc : L.Names c c') (type : Node) :
    Group.Follows D L L a a b b [.typed c type] [.typed c' type] := by
  have heq : Element.typed c' type = (Element.typed c type).rename L.name := by
    rw [hc.2]
    rfl
  rw [heq]
  refine .renamed hL fun v hv => ?_
  have hvc : v = c := by
    simpa [Element.typed, Element.ofTriple, Element.vars, TriplePattern.vars, Term.vars,
      Term.iri] using hv
  exact hvc ▸ hc.1

theorem Group.Follows.lookedUp (hL : L.Sound a b) (hc : L.Names c c') (i : Iri) :
    Group.Follows D L ((L.fix b.fresh.1 (.iri i)).fix b.fresh.2.fresh.1 (.iri i)) a a b
      b.fresh.2.fresh.2 [.typed c (.iri i)] (Group.lookedUp c' i b) := by
  have hc' : ¬ b.Pending c' := hc.2 ▸ hL.right c hc.1
  have hL' := hL.fix b.precedes_fresh b.fresh_spent (.iri i)
  have hrenamed (type : Node) := Group.Follows.typed (D := D) hL hc type
  have hlink : ∀ x y, x.Avoids a → y.Avoids b → Row.Linked L x y →
      Row.Linked ((L.fix b.fresh.1 (.iri i)).fix b.fresh.2.fresh.1 (.iri i)) x
        ((y.put b.fresh.1 (some (.iri i))).put b.fresh.2.fresh.1 (some (.iri i))) := by
    intro x y hx hy hlinked
    have hy' := Row.avoids_put hy b.precedes_fresh b.fresh_spent (some (.iri i))
    have hfirst : Row.Linked (L.fix b.fresh.1 (.iri i)) x (y.put b.fresh.1 (some (.iri i))) := by
      refine (hlinked.put hL hx hy a.fresh_pending b.fresh_pending none (some (.iri i))).fix ?_
      rw [Row.value?_put (hy _ b.fresh_pending), if_pos rfl]
    refine (hfirst.put hL' hx hy' a.fresh_pending b.fresh.2.fresh_pending none
      (some (.iri i))).fix ?_
    rw [Row.value?_put (hy' _ b.fresh.2.fresh_pending), if_pos rfl]
  refine ⟨.refl a, b.precedes_fresh.trans b.fresh.2.precedes_fresh, (hrenamed (.iri i)).avoids,
    fun r x hr hx => ?_, fun r r' x hr hr' hlinked hx => ?_,
    fun r r' x' hr hr' hlinked hx' => ?_, fun y y' hlinked => ?_⟩
  · obtain ⟨type, y, hy, rfl⟩ := (Group.mem_steps_lookedUp hc' hr).1 hx
    have hy' := (hrenamed type).avoids' r y hr hy
    exact Row.avoids_put (Row.avoids_put hy' b.precedes_fresh b.fresh_spent _)
      b.fresh.2.precedes_fresh b.fresh.2.fresh_spent _
  · obtain ⟨y, hy, hlinked'⟩ := (hrenamed (.iri i)).forth r r' x hr hr' hlinked hx
    refine ⟨_, (Group.mem_steps_lookedUp hc' hr').2 ⟨.iri i, y, hy, rfl⟩, ?_⟩
    exact hlink x y ((hrenamed (.iri i)).avoids r x hr hx) ((hrenamed (.iri i)).avoids' r' y hr' hy)
      hlinked'
  · obtain ⟨type, y, hy, rfl⟩ := (Group.mem_steps_lookedUp hc' hr').1 hx'
    have hy' := (hrenamed type).avoids' r' y hr' hy
    by_cases htype : type = .iri i
    · subst htype
      refine .inl ?_
      rcases (hrenamed (.iri i)).back r r' y hr hr' hlinked hy with ⟨x, hx, hlinked'⟩ | hdoomed
      · exact ⟨x, hx, hlink x y ((hrenamed (.iri i)).avoids r x hr hx) hy' hlinked'⟩
      · cases hdoomed y (.refl y)
    · refine .inr fun z hz => ?_
      have hput := Row.avoids_put hy' b.precedes_fresh b.fresh_spent (some type)
      have hfound : z.value? b.fresh.1 = some type := by
        refine hz _ _ ?_
        rw [hput.value?_put b.fresh.2.fresh_pending _ b.fresh_not_pending,
          Row.value?_put (hy' _ b.fresh_pending), if_pos rfl]
      have hexpected : z.value? b.fresh.2.fresh.1 = some (.iri i) := by
        refine hz _ _ ?_
        rw [Row.value?_put (hput _ b.fresh.2.fresh_pending), if_pos rfl]
      simp [Group.lookedUp, Element.holdAll, Element.hold, Element.ofTriple, Expr.equals, Expr.var,
        Expr.value?, Term.value?, hfound, hexpected, Comparison.eq_apply_iri, htype]
  · have hfound := hlinked.fixed (b.fresh.1, .iri i) (.inr (.inl rfl))
    have hexpected := hlinked.fixed (b.fresh.2.fresh.1, .iri i) (.inl rfl)
    simp [Group.lookedUp, Element.typed, Element.holdAll, Element.hold, Element.ofTriple,
      Expr.equals, Expr.var, Expr.value?, Term.value?, hfound, hexpected, Comparison.eq_apply_iri]

end

/-! ## Tests that agree -/

/-- A test, asked of the surrounding group. -/
def Compile.required (limits : RecursionLimits) (t : Test) (context : Variable) : Emit Unit := do
  let e ← test .builtin limits t context
  require e

theorem Compile.required_apply {limits : RecursionLimits} {t : Test} {context : Variable}
    {a : Allocator} {inner : Emission Expr} (h : test .builtin limits t context a = .ok inner) :
    required limits t context a =
      .ok ⟨(), inner.elements ++ filterOf inner.value, inner.allocator⟩ := by
  exact bind_eq_ok h (require_apply inner.value inner.allocator)

theorem Compile.selector_testing (limits : RecursionLimits) (delegate : Selector) (t : Test)
    (context : Variable) : selector .builtin limits (.testing delegate t) context = (do
      let v ← selector .builtin limits delegate context
      required limits t v
      return context) := by
  rw [selector, governed_selectorRule]
  simp only [required, bind_assoc]

/-- The second test follows the first wherever it is asked. -/
def Test.Follows (D : List Quad) (limits : RecursionLimits) (t t' : Test) : Prop :=
  ∀ (L : Links) (v v' : Variable), L.Names v v' →
    Emit.Follows D L Unrelated (required limits t v) (required limits t' v')

/-- The second test follows the first, and is true of the same values. Where it has to be exact, it
also has the same verdict on all of them. -/
structure Test.Agrees (D : List Quad) (limits : RecursionLimits) (exact : Bool) (t t' : Test) :
    Prop where
  follows : Test.Follows D limits t t'
  holds : ∀ value, t'.verdict D limits value = some true ↔ t.verdict D limits value = some true
  exactly : exact = true → ∀ value, t'.verdict D limits value = t.verdict D limits value

namespace Test.Agrees

variable {D : List Quad} {limits : RecursionLimits} {exact : Bool} {t t' : Test}

private theorem holds_of_follows (hfault : t'.fault? limits = t.fault? limits)
    (h : Test.Follows D limits t t') (value : Option Node) :
    t'.verdict D limits value = some true ↔ t.verdict D limits value = some true := by
  cases ht : t.fault? limits with
  | some e => rw [verdict_of_fault ht, verdict_of_fault (hfault.trans ht)]
  | none =>
    let a := Allocator.ofSettings {}
    have hroot : ¬ a.Pending a.root := a.root_not_pending
    obtain ⟨inner, hinner, -⟩ := (faultIs_test limits t a.root).succeeds a ht
    obtain ⟨inner', hinner', -⟩ := (faultIs_test limits t' a.root).succeeds a (hfault.trans ht)
    obtain ⟨em, hem⟩ := exists_enclosed_ok ht a.root a
    obtain ⟨em', hem'⟩ := exists_enclosed_ok (hfault.trans ht) a.root a
    have hr := avoids_single hroot value
    have hverdict := verdict_eq (D := D) hroot hem hr
    have hverdict' := verdict_eq (D := D) hroot hem' hr
    rw [Row.value?_single, if_pos rfl] at hverdict hverdict'
    obtain ⟨L', -, -, -, hgroup⟩ := h (.start a.root a.root) a.root a.root
      (Links.names_start _ _) a a _ _ (Links.sound_start hroot hroot) (required_apply hinner)
      (required_apply hinner')
    obtain ⟨hforth, hback⟩ := hgroup.found hr hr (.start rfl)
    rw [hverdict, hverdict', ← exists_found_required_iff hinner hem,
      ← exists_found_required_iff hinner' hem']
    constructor
    · rintro ⟨x', hx'⟩
      obtain ⟨x, hx, -⟩ := hback x' hx'
      exact ⟨x, hx⟩
    · rintro ⟨x, hx⟩
      obtain ⟨x', hx', -⟩ := hforth x hx
      exact ⟨x', hx'⟩

theorem of_decided (hfault : t'.fault? limits = t.fault? limits)
    (h : Test.Follows D limits t t')
    (hsome : t.fault? limits = none → ∀ value, (t.verdict D limits value).isSome ∧
      (t'.verdict D limits value).isSome) : Test.Agrees D limits exact t t' := by
  refine ⟨h, holds_of_follows hfault h, fun _ value => ?_⟩
  have hiff := holds_of_follows hfault h value
  cases hverdict : t.verdict D limits value with
  | none =>
    cases hverdict' : t'.verdict D limits value with
    | none => rfl
    | some b =>
      have hnone := (hsome (hfault.symm.trans (fault?_eq_none_of_verdict hverdict')) value).1
      rw [hverdict] at hnone
      cases hnone
  | some b =>
    obtain ⟨b', hb'⟩ := Option.isSome_iff_exists.1
      (hsome (fault?_eq_none_of_verdict hverdict) value).2
    rw [hverdict, hb'] at hiff
    rw [hb']
    cases b <;> cases b' <;> simp_all

theorem follows_of_values
    (h : ∀ (L : Links) (v v' : Variable), L.Names v v' →
      Emit.Follows D L (Links.Values D) (test .builtin limits t v) (test .builtin limits t' v')) :
    Test.Follows D limits t t' := by
  intro L v v' hv
  refine (h L v v' hv).bind fun L' e e' _ hvalues => follows_require fun y y' hlinked => ?_
  rw [hvalues y y' hlinked]

/-- Tests whose conditions have the same value in linked rows agree. They do so exactly if both ask
for a match or neither does. -/
theorem of_values (hfault : t'.fault? limits = t.fault? limits)
    (h : ∀ (L : Links) (v v' : Variable), L.Names v v' →
      Emit.Follows D L (Links.Values D) (test .builtin limits t v) (test .builtin limits t' v'))
    (hwritten : exact = true → ∀ v a inner inner', test .builtin limits t v a = .ok inner →
      test .builtin limits t' v a = .ok inner' → (inner'.elements = [] ↔ inner.elements = [])) :
    Test.Agrees D limits exact t t' := by
  have hfollows := follows_of_values h
  refine ⟨hfollows, holds_of_follows hfault hfollows, fun hexact value => ?_⟩
  cases ht : t.fault? limits with
  | some e => rw [verdict_of_fault ht, verdict_of_fault (hfault.trans ht)]
  | none =>
    let a := Allocator.ofSettings {}
    have hroot : ¬ a.Pending a.root := a.root_not_pending
    obtain ⟨inner, hinner, -⟩ := (faultIs_test limits t a.root).succeeds a ht
    obtain ⟨inner', hinner', -⟩ := (faultIs_test limits t' a.root).succeeds a (hfault.trans ht)
    have hsilent := hwritten hexact a.root a inner inner' hinner hinner'
    by_cases hnil : inner.elements = []
    · have hr := avoids_single hroot value
      have hverdict := verdict_of_silent (D := D) hroot hinner hnil hr
      have hverdict' := verdict_of_silent (D := D) hroot hinner' (hsilent.2 hnil) hr
      rw [Row.value?_single, if_pos rfl] at hverdict hverdict'
      obtain ⟨L', -, -, hvalues, hgroup⟩ := h (.start a.root a.root) a.root a.root
        (Links.names_start _ _) a a _ _ (Links.sound_start hroot hroot) hinner hinner'
      obtain ⟨x', hx', hlinked⟩ := hgroup.forth _ _ _ hr hr (.start rfl)
        (by rw [hnil]; exact List.mem_singleton_self _)
      rw [hsilent.2 hnil, Element.steps, List.mem_singleton] at hx'
      rw [hverdict, hverdict', ← hx', hvalues _ _ hlinked, hx']
    · have hdecided : Test.Agrees D limits true t t' := of_decided hfault hfollows fun _ value =>
        ⟨verdict_isSome_of_written hroot hinner hnil value,
          verdict_isSome_of_written hroot hinner' (fun h => hnil (hsilent.1 h)) value⟩
      exact hdecided.exactly rfl value

private theorem of_verdicts
    (hsilent : ∀ v a inner, test .builtin limits t v a = .ok inner → inner.elements = [])
    (hsilent' : ∀ v a inner, test .builtin limits t' v a = .ok inner → inner.elements = [])
    (hholds : ∀ value,
      t'.verdict D limits value = some true ↔ t.verdict D limits value = some true)
    (hexactly : exact = true →
      ∀ value, t'.verdict D limits value = t.verdict D limits value) :
    Test.Agrees D limits exact t t' := by
  refine ⟨fun L v v' hv a b em em' hL hem hem' => ?_, hholds, hexactly⟩
  obtain ⟨inner, rest, hinner, -, -⟩ := bind_ok hem
  obtain ⟨inner', rest', hinner', -, -⟩ := bind_ok hem'
  obtain rfl := Except.ok.inj ((required_apply hinner).symm.trans hem)
  obtain rfl := Except.ok.inj ((required_apply hinner').symm.trans hem')
  have hlater := (stays_test limits t v a inner hinner).1.later
  have hlater' := (stays_test limits t' v' b inner' hinner').1.later
  have hnil := hsilent v a inner hinner
  have hnil' := hsilent' v' b inner' hinner'
  -- The variables of the scopes stay unbound for good, so the filters may be evaluated at any time.
  refine ⟨L.rest {w | a.Spent inner.allocator w} {w | b.Spent inner'.allocator w},
    Links.below_rest L _ _, hL.rest hlater hlater', trivial, ?_⟩
  simp only [hnil, hnil', List.nil_append]
  refine .of_single hlater hlater'
    (fun r hr => ⟨Element.steps_filterOf D inner.value r, hr.later hlater⟩)
    (fun r hr => ⟨Element.steps_filterOf D inner'.value r, hr.later hlater'⟩)
    (fun r r' hr hr' hlinked => hlinked.rest (fun w hw => hr w hw.1) fun w hw => hr' w hw.1)
    fun y y' hlinked => ?_
  have htruth := truth?_of_silent (D := D) (hL.left v hv.1) hinner hnil
    fun w hw => hlinked.idle w (.inr hw)
  have htruth' := truth?_of_silent (D := D) (hv.2 ▸ hL.right v hv.1) hinner' hnil'
    fun w hw => hlinked.idle' w (.inr hw)
  rw [Bool.eq_iff_iff, Element.holdAll_filterOf, Element.holdAll_filterOf, htruth, htruth',
    (hlinked.mono (Links.below_rest L _ _)).value?_eq hv]
  exact hholds (y.value? v)

theorem joined {left left' right right' : Test} {join : Expr → Expr → Expr}
    {op : Option Bool → Option Bool → Option Bool}
    (htest : ∀ context, test .builtin limits t context =
      Compile.joined limits join left right context)
    (htest' : ∀ context, test .builtin limits t' context =
      Compile.joined limits join left' right' context)
    (hjoin : ∀ l l' r, truth? (Expr.value? D (join l l') r) =
      op (truth? (Expr.value? D l r)) (truth? (Expr.value? D l' r)))
    (hfault : t'.fault? limits = t.fault? limits)
    (hop : ∀ x x' y y', (x' = some true ↔ x = some true) → (y' = some true ↔ y = some true) →
      (op x' y' = some true ↔ op x y = some true))
    (hleft : Test.Agrees D limits exact left left')
    (hright : Test.Agrees D limits exact right right') : Test.Agrees D limits exact t t' := by
  have hsilent v a inner (h : test .builtin limits t v a = .ok inner) : inner.elements = [] :=
    joined_silent (htest v ▸ h)
  have hsilent' v a inner (h : test .builtin limits t' v a = .ok inner) : inner.elements = [] :=
    joined_silent (htest' v ▸ h)
  cases ht : t.fault? limits with
  | some e =>
    have hnone value : t'.verdict D limits value = t.verdict D limits value := by
      rw [verdict_of_fault ht, verdict_of_fault (hfault.trans ht)]
    exact .of_verdicts hsilent hsilent' (fun value => by rw [hnone]) fun _ => hnone
  | none =>
    have hverdict := verdict_joined htest hjoin ht
    have hverdict' := verdict_joined htest' hjoin (hfault.trans ht)
    refine .of_verdicts hsilent hsilent' (fun value => ?_) fun hexact value => ?_
    · rw [hverdict, hverdict']
      exact hop _ _ _ _ (hleft.holds value) (hright.holds value)
    · rw [hverdict, hverdict', hleft.exactly hexact, hright.exactly hexact]

theorem not (hfault : t'.fault? limits = t.fault? limits)
    (h : ∀ value, t'.verdict D limits value = t.verdict D limits value) :
    Test.Agrees D limits exact (.not t) (.not t') := by
  have hverdict value :
      (Test.not t').verdict D limits value = (Test.not t).verdict D limits value := by
    cases ht : t.fault? limits with
    | some e =>
      have hnot : (Test.not t).fault? limits = some e := ht
      have hnot' : (Test.not t').fault? limits = some e := hfault.trans ht
      rw [verdict_of_fault hnot, verdict_of_fault hnot']
    | none => rw [verdict_not ht, verdict_not (hfault.trans ht), h]
  exact .of_verdicts (fun _ _ _ => not_silent) (fun _ _ _ => not_silent)
    (fun value => by rw [hverdict]) fun _ => hverdict

end Test.Agrees

end GraphPath
