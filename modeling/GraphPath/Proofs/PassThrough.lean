import GraphPath.Proofs.Agreement
import GraphPath.Proofs.Parentheses

/-!
# Parentheses are passed through

A selector and its plain form are compiled side by side. Most steps are the same under other names;
an operand that is a constant in parentheses takes a variable of its own. So selectors with the same
plain form have the same values, and all that differ in parentheses only compile or fail alike.
-/

namespace GraphPath

open Emit Compile

namespace Compile

variable {D : List Quad} {limits : RecursionLimits} {L : Links} {c c' : Variable}

/-! ## Operands -/

private theorem selector_of_plain_constant {s : Selector} {n : Node}
    (h : s.plain limits = .constant n) (context : Variable) :
    selector .builtin limits s context = bindFresh (.term (.node n)) := by
  cases s with
  | constant m =>
    cases h
    rw [selector, governed_selectorRule]
  | grouping inner =>
    rw [selector, governed_selectorRule]
    exact selector_of_plain_constant (s := inner) h context
  | _ => cases h

private theorem follows_asOperand {s : Selector} (keep : Bool)
    (h : Follows D L Links.Names (selector .builtin limits (s.plain limits) c)
      (selector .builtin limits s c')) :
    Follows D L (Links.Values D)
      (asOperand (s.unwrapped keep (s.plain limits))
        (selector .builtin limits (s.unwrapped keep (s.plain limits)) c))
      (asOperand s (selector .builtin limits s c')) := by
  have hvariable : Follows D L (Links.Values D)
      (do
        let v ← selector .builtin limits (s.plain limits) c
        return .var v)
      (do
        let v ← selector .builtin limits s c'
        return .var v) :=
    h.bind fun L' v v' _ hv => follows_done fun y y' hlinked => hlinked.value?_eq hv
  by_cases hconstant : ∃ n, s.plain limits = .constant n
  · obtain ⟨n, hn⟩ := hconstant
    rcases Selector.plain_constant_cases hn with rfl | ⟨inner, rfl⟩
    · have hsame : (Selector.constant n).unwrapped keep ((Selector.constant n).plain limits) =
          .constant n := by cases keep <;> rfl
      rw [hsame]
      exact follows_done fun _ _ _ => rfl
    · rw [asOperand_eq (Selector.grouping_ne_constant inner), hn]
      rw [hn] at hvariable
      cases keep with
      | false =>
        rw [selector_of_plain_constant hn]
        exact follows_fixed n
      | true =>
        rw [Selector.unwrapped, asOperand_eq (Selector.grouping_ne_constant (.constant n)),
          selector, governed_selectorRule]
        exact hvariable
  · have hplain : ∀ n, s.plain limits ≠ .constant n := fun n hn => hconstant ⟨n, hn⟩
    have hs : ∀ n, s ≠ .constant n := fun n hn => hplain n (by rw [hn, Selector.plain])
    rw [Selector.unwrapped_eq hplain, asOperand_eq hplain, asOperand_eq hs]
    exact hvariable

/-- A comparison agrees with the one between its plain operands. Where it has to be exact and would
write nothing without its parentheses, they are kept. -/
theorem agrees_compared {exact : Bool} {t t' : Test} {op : Comparison} {left right : Selector}
    (hfault : t'.fault? limits = t.fault? limits)
    (htest : ∀ context, test .builtin limits t context =
      let keep := exact && (left.plain limits).bare limits && (right.plain limits).bare limits
      compared limits op (left.unwrapped keep (left.plain limits))
        (right.unwrapped keep (right.plain limits)) context)
    (htest' : ∀ context, test .builtin limits t' context = compared limits op left right context)
    (hleft : ∀ (L : Links) (v v' : Variable), L.Names v v' → Follows D L Links.Names
      (selector .builtin limits (left.plain limits) v) (selector .builtin limits left v'))
    (hright : ∀ (L : Links) (v v' : Variable), L.Names v v' → Follows D L Links.Names
      (selector .builtin limits (right.plain limits) v) (selector .builtin limits right v')) :
    Test.Agrees D limits exact t t' := by
  refine .of_values hfault (fun L v v' hv => ?_) fun hexact v a inner inner' hinner hinner' => ?_
  · rw [htest, htest']
    refine (follows_asOperand _ (hleft L v v' hv)).bind fun L₁ e e' hle he =>
      (follows_asOperand _ (hright L₁ v v' (hv.mono hle))).bind fun L₂ k k' hle' hk => ?_
    refine follows_done fun y y' hlinked => ?_
    rw [Expr.value?, Expr.value?, he.mono hle' y y' hlinked, hk y y' hlinked]
  · rw [htest] at hinner
    rw [htest'] at hinner'
    rw [compared_silent_iff hinner, compared_silent_iff hinner', hexact, Bool.true_and,
      Selector.bare_unwrapped_both]

/-! ## Selectors -/

private theorem follows_alongProperty (p : Iri) (hc : L.Names c c') :
    Follows D L Links.Names (alongProperty p c) (alongProperty p c') := by
  refine follows_fresh.bind fun L₁ o o' h₁ ho => ?_
  have hwrite := follows_writeTriple (D := D) (hc.mono h₁) ho (p := .iri p)
    (by simp [Term.iri, Term.vars]) rfl
  exact hwrite.bind fun L₂ _ _ h₂ _ => follows_done (ho.mono h₂)

private theorem follows_againstProperty (p : Iri) (hc : L.Names c c') :
    Follows D L Links.Names (againstProperty p c) (againstProperty p c') := by
  refine follows_fresh.bind fun L₁ o o' h₁ ho => ?_
  have hwrite := follows_writeTriple (D := D) ho (hc.mono h₁) (p := .iri p)
    (by simp [Term.iri, Term.vars]) rfl
  exact hwrite.bind fun L₂ _ _ h₂ _ => follows_done (ho.mono h₂)

private theorem follows_alongAny (hc : L.Names c c') :
    Follows D L Links.Names (alongAny c) (alongAny c') := by
  refine follows_fresh.bind fun L₁ p p' h₁ hp => follows_fresh.bind fun L₂ o o' h₂ ho => ?_
  have hp' := hp.mono h₂
  refine (follows_writeTriple (hc.mono (h₁.trans h₂)) ho (p := .var p) (fun v hv => ?_) ?_).bind
    fun L₃ _ _ h₃ _ => follows_done (ho.mono h₃)
  · rw [List.mem_singleton.1 hv]
    exact hp'.1
  · rw [hp'.2]
    rfl

private theorem values?_eq_of_values {es es' : List Expr} (h : List.Forall₂ (L.Values D) es es')
    {y y' : Row} (hlinked : Row.Linked L y y') :
    Expr.values? D es' y' = Expr.values? D es y := by
  induction h with
  | nil => rfl
  | cons he _ ih => rw [Expr.values?, Expr.values?, he y y' hlinked, ih]

private theorem values_of_apply {f : PathFunction} {name : String} {es es' : List Expr}
    {e e' : Expr} (h : List.Forall₂ (L.Values D) es es') (he : f.apply name es = .ok e)
    (he' : f.apply name es' = .ok e') : L.Values D e e' := by
  rw [PathFunction.apply_ok he, PathFunction.apply_ok he']
  intro y y' hlinked
  rw [Expr.value?, Expr.value?, values?_eq_of_values h hlinked]

private theorem test_isA {type : Selector} (h : ∀ i, type ≠ .constant (.iri i))
    (context : Variable) :
    test .builtin limits (.isA type) context = (do
      let found ← fresh
      writeTriple (.var context) (.iri Iri.rdfType) (.var found)
      let expected ← asOperand type (selector .builtin limits type context)
      return .equals (.var found) expected) := by
  rw [test, governed_testRule]
  exact h

private theorem follows_test_isA {type : Selector} (h : ∀ i, type.plain limits ≠ .constant (.iri i))
    (htype : ∀ (L : Links) (v v' : Variable), L.Names v v' → Follows D L Links.Names
      (selector .builtin limits (type.plain limits) v) (selector .builtin limits type v'))
    (hc : L.Names c c') :
    Follows D L (Links.Values D) (test .builtin limits (.isA (type.plain limits)) c)
      (test .builtin limits (.isA type) c') := by
  have h' : ∀ i, type ≠ .constant (.iri i) := fun i hi => h i (by rw [hi, Selector.plain])
  rw [test_isA h, test_isA h']
  refine follows_fresh.bind fun L₁ v v' h₁ hv =>
    (follows_writeTriple (hc.mono h₁) hv (by simp [Term.iri, Term.vars]) rfl).bind
      fun L₂ _ _ h₂ _ => ?_
  have hoperand := follows_asOperand false (htype L₂ c c' (hc.mono (h₁.trans h₂)))
  refine hoperand.bind fun L₃ e e' h₃ he => follows_done fun y y' hlinked => ?_
  have hfound := hlinked.value?_eq (hv.mono (h₂.trans h₃))
  simp only [Expr.equals, Expr.var, Expr.value?, Term.value?, hfound, he y y' hlinked]

private theorem required_isA_apply (i : Iri) (c : Variable) (a : Allocator) :
    required limits (.isA (.constant (.iri i))) c a = .ok ⟨(), [.typed c (.iri i)], a⟩ := rfl

private theorem required_isA_grouping {inner : Selector} {i : Iri}
    (h : (Selector.grouping inner).plain limits = .constant (.iri i)) (c : Variable)
    (b : Allocator) : required limits (.isA (.grouping inner)) c b =
      .ok ⟨(), Group.lookedUp c i b, b.fresh.2.fresh.2⟩ := by
  have hcompiled : test .builtin limits (.isA (.grouping inner)) c b = .ok
      ⟨.equals (.var b.fresh.1) (.var b.fresh.2.fresh.1),
        [.ofTriple (.var c) (.iri Iri.rdfType) (.var b.fresh.1),
          .bind (.term (.iri i)) b.fresh.2.fresh.1], b.fresh.2.fresh.2⟩ := by
    rw [test_isA fun i => Selector.grouping_ne_constant inner (.iri i),
      asOperand_eq (Selector.grouping_ne_constant inner), selector_of_plain_constant h]
    rfl
  rw [required_apply hcompiled]
  rfl

/-- A type in parentheses is looked up and compared, where without them it is asked for. -/
theorem follows_required_isA {type : Selector} {i : Iri}
    (h : type.plain limits = .constant (.iri i)) :
    Test.Follows D limits (.isA (.constant (.iri i))) (.isA type) := by
  intro L c c' hc a b em em' hL hem hem'
  rw [required_isA_apply] at hem
  obtain rfl := Except.ok.inj hem
  rcases Selector.plain_constant_cases h with rfl | ⟨inner, rfl⟩
  · rw [required_isA_apply] at hem'
    obtain rfl := Except.ok.inj hem'
    exact ⟨L, .refl L, hL, trivial, .typed hL hc (.iri i)⟩
  · rw [required_isA_grouping h] at hem'
    obtain rfl := Except.ok.inj hem'
    refine ⟨_, (Links.below_fix L _ _).trans (Links.below_fix _ _ _), ?_, trivial,
      .lookedUp hL hc i⟩
    exact (hL.fix b.precedes_fresh b.fresh_spent (.iri i)).fix b.fresh.2.precedes_fresh
      b.fresh.2.fresh_spent (.iri i)

mutual

/-- A selector follows its plain form. -/
theorem follows_selector (s : Selector) {L : Links} {c c' : Variable} (hc : L.Names c c') :
    Follows D L Links.Names (selector .builtin limits (s.plain limits) c)
      (selector .builtin limits s c') := by
  cases s with
  | property p => exact follows_alongProperty p hc
  | reverse p => exact follows_againstProperty p hc
  | path left right =>
    rw [Selector.plain, selector, governed_selectorRule, selector, governed_selectorRule]
    exact (follows_selector left hc).bind fun L' v v' _ hv => follows_selector right hv
  | union left right =>
    rw [Selector.plain, selector, governed_selectorRule, selector, governed_selectorRule]
    refine follows_alternatives hc ?_ ?_ (.cons (follows_selector left (Links.names_start c c'))
      (.cons (follows_selector right (Links.names_start c c')) .nil))
    · exact stays_sides [left.plain limits, right.plain limits]
    · exact stays_sides [left, right]
  | intersection left right =>
    rw [Selector.plain, selector, governed_selectorRule, selector, governed_selectorRule]
    refine (follows_selector left hc).bind fun L₁ l l' h₁ hl =>
      (follows_selector right (hc.mono h₁)).bind fun L₂ k k' h₂ hk => ?_
    exact (follows_requireSame (hl.mono h₂) hk).bind fun L₃ _ _ h₃ _ =>
      follows_done (hl.mono (h₂.trans h₃))
  | recursive inner min max =>
    rw [Selector.plain, selector, governed_selectorRule, selector, governed_selectorRule]
    refine follows_ofExcept_bind fun bound bound' hbound hbound' => ?_
    obtain rfl := Except.ok.inj (hbound.symm.trans hbound')
    exact follows_unrolled (fun v => stays_selector limits _ v) (fun v => stays_selector limits _ v)
      (fun L v v' hv => follows_selector inner hv) min bound hc
  | grouping inner =>
    rw [Selector.plain, selector.eq_def .builtin limits (.grouping inner), governed_selectorRule]
    exact follows_selector inner hc
  | testing delegate t =>
    rw [Selector.plain, selector_testing, selector_testing]
    exact (follows_selector delegate hc).bind fun L₁ v v' h₁ hv =>
      ((agrees_test t false).follows L₁ v v' hv).bind fun L₂ _ _ h₂ _ =>
        follows_done (hc.mono (h₁.trans h₂))
  | function name args =>
    rw [Selector.plain, selector, governed_selectorRule, selector, governed_selectorRule]
    refine follows_ofExcept_bind fun f f' hf hf' => ?_
    obtain rfl := Except.ok.inj (hf.symm.trans hf')
    obtain ⟨g, -, rfl⟩ := Registry.builtin_function_ok hf
    refine (follows_operands args hc).bind fun L' es es' _ hes =>
      follows_ofExcept_bind fun e e' he he' => ?_
    exact follows_bindFresh (values_of_apply hes he he')
  | self => exact follows_done hc
  | wildcard => exact follows_alongAny hc
  | constant n => exact follows_bindFresh fun _ _ _ => rfl

private theorem follows_operands (args : List Selector) {L : Links} {c c' : Variable}
    (hc : L.Names c c') :
    Follows D L (fun L' => List.Forall₂ (L'.Values D))
      (operands .builtin limits (Selector.plainAll limits args) c)
      (operands .builtin limits args c') := by
  cases args with
  | nil => exact follows_done .nil
  | cons s rest =>
    rw [Selector.plainAll, operands, operands]
    refine (follows_asOperand false (follows_selector s hc)).bind fun L₁ e e' h₁ he =>
      (follows_operands rest (hc.mono h₁)).bind fun L₂ es es' h₂ hes => ?_
    exact follows_done (.cons (he.mono h₂) hes)

private theorem agrees_test (t : Test) (exact : Bool) :
    Test.Agrees D limits exact (t.plain limits exact) t := by
  have hfault := (t.fault?_plain limits exact).symm
  cases t with
  | isA type =>
    refine .of_decided hfault ?_ fun ht value =>
      ⟨verdict_isSome_of_isA ht value, verdict_isSome_of_isA (hfault.trans ht) value⟩
    rw [Test.plain]
    by_cases hconstant : ∃ i, type.plain limits = .constant (.iri i)
    · obtain ⟨i, hi⟩ := hconstant
      rw [hi]
      exact follows_required_isA hi
    · refine Test.Agrees.follows_of_values fun L v v' hv => ?_
      exact follows_test_isA (fun i hi => hconstant ⟨i, hi⟩)
        (fun L v v' hv => follows_selector type hv) hv
  | and left right =>
    exact .joined (fun c => by rw [Test.plain, test, governed_testRule]; rfl)
      (fun c => by rw [test, governed_testRule]; rfl) truth?_both hfault
      (fun x x' y y' hx hy => by rw [bothTrue_eq_true_iff, bothTrue_eq_true_iff, hx, hy])
      (agrees_test left exact) (agrees_test right exact)
  | or left right =>
    exact .joined (fun c => by rw [Test.plain, test, governed_testRule]; rfl)
      (fun c => by rw [test, governed_testRule]; rfl) truth?_oneOf hfault
      (fun x x' y y' hx hy => by rw [someTrue_eq_true_iff, someTrue_eq_true_iff, hx, hy])
      (agrees_test left exact) (agrees_test right exact)
  | not inner => exact .not hfault ((agrees_test inner true).exactly rfl)
  | comparison op left right =>
    exact agrees_compared hfault (fun c => by rw [Test.plain, test, governed_testRule]; rfl)
      (fun c => by rw [test, governed_testRule]; rfl)
      (fun L v v' hv => follows_selector left hv) fun L v v' hv => follows_selector right hv
  | pathEquality left right =>
    exact agrees_compared hfault (fun c => by rw [Test.plain, test, governed_testRule]; rfl)
      (fun c => by rw [test, governed_testRule]; rfl)
      (fun L v v' hv => follows_selector left hv) fun L v v' hv => follows_selector right hv
  | pathExists path =>
    refine .of_decided hfault (Test.Agrees.follows_of_values fun L v v' hv => ?_) fun ht value =>
      ⟨verdict_isSome_of_pathExists ht value, verdict_isSome_of_pathExists (hfault.trans ht) value⟩
    rw [Test.plain, test, governed_testRule, test, governed_testRule]
    exact (follows_selector path hv).bind fun _ _ _ _ _ => follows_done fun _ _ _ => rfl
  | language tag =>
    refine .of_values hfault (fun L v v' hv => ?_) fun _ v a inner inner' hinner hinner' => ?_
    · refine follows_done fun y y' hlinked => ?_
      simp [languageCondition, Expr.var, Expr.literal, Term.literal, Expr.value?, Expr.values?,
        Term.value?, hlinked.value?_eq hv]
    · cases hinner.symm.trans hinner'
      rfl
  | datatype type =>
    refine .of_values hfault (fun L v v' hv => ?_) fun _ v a inner inner' hinner hinner' => ?_
    · refine follows_done fun y y' hlinked => ?_
      simp [datatypeCondition, Expr.equals, Expr.var, Term.iri, Expr.value?, Expr.values?,
        Term.value?, hlinked.value?_eq hv]
    · cases hinner.symm.trans hinner'
      rfl

end

end Compile

/-! ## Values -/

/-- A selector has the values of its plain form. -/
theorem Selector.Run.values_plain {D : List Quad} {limits : RecursionLimits} {s p : Selector}
    (hp : s.plain limits = p) {context : Variable} {seed : Row} {c : Node}
    (hc : seed.value? context = some c) (plain : Run D limits p context seed)
    (run : Run D limits s context seed) : run.values = plain.values := by
  subst hp
  have hcontext := plain.avoids.not_pending hc
  have hcontext' := run.avoids.not_pending hc
  obtain ⟨L, -, -, hvalue, hgroup⟩ := follows_selector s (Links.names_start context context)
    plain.allocator run.allocator plain.emission run.emission
    (Links.sound_start hcontext hcontext') plain.compiled run.compiled
  obtain ⟨hforth, hback⟩ := hgroup.found plain.avoids run.avoids (.start rfl)
  ext n
  rw [run.values_eq, plain.values_eq, Emission.mem_values, Emission.mem_values]
  constructor
  · rintro ⟨x', hx', hn⟩
    obtain ⟨x, hx, hlinked⟩ := hback x' hx'
    exact ⟨x, hx, (hlinked.value?_eq hvalue).symm.trans hn⟩
  · rintro ⟨x, hx, hn⟩
    obtain ⟨x', hx', hlinked⟩ := hforth x hx
    exact ⟨x', hx', (hlinked.value?_eq hvalue).trans hn⟩

private theorem Selector.Run.exists_plain {D : List Quad} {limits : RecursionLimits} {s : Selector}
    {context : Variable} {seed : Row} (run : Run D limits s context seed) :
    Nonempty (Run D limits (s.plain limits) context seed) := by
  have hfault := ((faultIs_selector limits s context).ok_iff _).1 ⟨_, run.compiled⟩
  rw [← s.fault?_plain] at hfault
  obtain ⟨em, hem, -⟩ :=
    (faultIs_selector limits (s.plain limits) context).succeeds run.allocator hfault
  obtain ⟨plain, -⟩ := exists_of_compiled D run.avoids hem
  exact ⟨plain⟩

/-- Selectors that differ in parentheses only compile, or fail with the same error, from every
context and with whatever variables. If moreover they have the parentheses that count in common,
they have the same values from every row that binds the context. -/
theorem parentheses_irrelevant {limits : RecursionLimits} {s s' : Selector}
    (h : s'.ungrouped = s.ungrouped) :
    (∀ context context' a a' e, Compile.selector .builtin limits s' context' a' = .error e ↔
      Compile.selector .builtin limits s context a = .error e) ∧
    (s'.plain limits = s.plain limits → ∀ {D : List Quad} {context : Variable} {seed : Row}
      {c : Node}, seed.value? context = some c →
      ∀ (run : Selector.Run D limits s context seed) (run' : Selector.Run D limits s' context seed),
        run'.values = run.values) := by
  refine ⟨fun context context' a a' e => ?_, fun hplain D context seed c hc run run' => ?_⟩
  · rw [(faultIs_selector limits s' context').error_iff,
      (faultIs_selector limits s context).error_iff, ← s'.fault?_ungrouped, h,
      s.fault?_ungrouped]
  · obtain ⟨plain⟩ := run.exists_plain
    rw [plain.values_plain rfl hc run, plain.values_plain hplain hc run']

/-- A negated comparison with a number, without parentheses and with all that can be put. -/
theorem parentheses_irrelevant_compared :
    let p : Iri := ⟨"http://e/p"⟩
    let five : Selector := .constant (.literal (.integer 5))
    let D : List Quad := [⟨⟨"http://e/a"⟩, p, .literal (.integer 7), none⟩]
    let s : Selector := .testing .self (.not (.comparison .lt (.property p) five))
    let s' : Selector := .grouping (.testing (.grouping .self)
      (.not (.comparison .lt (.grouping (.property p)) (.grouping (.grouping five)))))
    let seed := Row.bind .empty ⟨"x"⟩ (.iri ⟨"http://e/a"⟩)
    s'.ungrouped = s.ungrouped ∧ s'.plain {} = s.plain {} ∧
      seed.value? ⟨"x"⟩ = some (.iri ⟨"http://e/a"⟩) ∧
      ∃ (run : Selector.Run D {} s ⟨"x"⟩ seed) (run' : Selector.Run D {} s' ⟨"x"⟩ seed),
        run.values = {.iri ⟨"http://e/a"⟩} ∧ run'.values = run.values := by
  intro p five D s s' seed
  have hc : seed.value? ⟨"x"⟩ = some (.iri ⟨"http://e/a"⟩) := by simp [seed]
  have hseed : seed.Avoids ⟨"v", ⟨"x"⟩, 0⟩ :=
    Row.avoids_bind_empty (Allocator.root_not_pending ⟨"v", ⟨"x"⟩, 0⟩) _
  have hplain : s'.plain {} = s.plain {} := rfl
  obtain ⟨run, hrun⟩ := Selector.Run.exists_of_outputs (D := D) (s := s) hseed
    (by decide +kernel : Selector.Run.outputs? D {} s ⟨"x"⟩ seed ⟨"v", ⟨"x"⟩, 0⟩ 9 =
      some [some (.iri ⟨"http://e/a"⟩)])
  obtain ⟨run', -⟩ := Selector.Run.exists_of_outputs (D := D) (s := s') hseed
    (by decide +kernel : Selector.Run.outputs? D {} s' ⟨"x"⟩ seed ⟨"v", ⟨"x"⟩, 0⟩ 9 =
      some [some (.iri ⟨"http://e/a"⟩)])
  have hgrouped : s'.ungrouped = s.ungrouped := rfl
  refine ⟨hgrouped, hplain, hc, run, run', ?_,
    (parentheses_irrelevant hgrouped).2 hplain hc run run'⟩
  rw [hrun]
  ext n
  simp

/-- Parentheses around a constant that a resource is compared with, below a negation: without them
the comparison has no truth value and the resource is refused, with them it is accepted. -/
theorem parentheses_decide :
    let five : Selector := .constant (.literal (.integer 5))
    let D : List Quad := [⟨⟨"http://e/a"⟩, ⟨"http://e/p"⟩, .iri ⟨"http://e/b"⟩, none⟩]
    let s : Selector := .testing .self (.not (.comparison .lt .self five))
    let s' : Selector := .testing .self (.not (.comparison .lt .self (.grouping five)))
    let seed := Row.bind .empty ⟨"x"⟩ (.iri ⟨"http://e/a"⟩)
    s'.ungrouped = s.ungrouped ∧
      ∃ (run : Selector.Run D {} s ⟨"x"⟩ seed) (run' : Selector.Run D {} s' ⟨"x"⟩ seed),
        run.values = ∅ ∧ run'.values = {.iri ⟨"http://e/a"⟩} := by
  intro five D s s' seed
  have hseed : seed.Avoids ⟨"v", ⟨"x"⟩, 0⟩ :=
    Row.avoids_bind_empty (Allocator.root_not_pending ⟨"v", ⟨"x"⟩, 0⟩) _
  obtain ⟨run, hrun⟩ := Selector.Run.exists_of_outputs (D := D) (s := s) hseed
    (by decide +kernel : Selector.Run.outputs? D {} s ⟨"x"⟩ seed ⟨"v", ⟨"x"⟩, 0⟩ 9 = some [])
  obtain ⟨run', hrun'⟩ := Selector.Run.exists_of_outputs (D := D) (s := s') hseed
    (by decide +kernel : Selector.Run.outputs? D {} s' ⟨"x"⟩ seed ⟨"v", ⟨"x"⟩, 0⟩ 9 =
      some [some (.iri ⟨"http://e/a"⟩)])
  refine ⟨rfl, run, run', ?_, ?_⟩
  · rw [hrun]
    ext n
    simp
  · rw [hrun']
    ext n
    simp

end GraphPath
