import GraphPath.Proofs.Tested

/-!
# Negated tests

A negated test is satisfied by exactly those values that do not satisfy the test, as long as the
test has a truth value. It has none where a condition is evaluated as it is and has no value: the
language or the datatype of a resource, and the comparison of two given nodes that do not compare.
Such a condition and its negation are both refused, and a compound test is left undecided by it
unless another part outvotes it.
-/

namespace GraphPath

open Emit Compile

/-- A value satisfies a test if the context with that value, tested, has a match. -/
def Test.Satisfied (D : List Quad) (limits : RecursionLimits) (t : Test) (value : Option Node) :
    Prop :=
  ∃ context seed, ∃ run : Selector.Run D limits (.testing .self t) context seed,
    ¬ run.allocator.Pending context ∧ seed.value? context = value ∧ run.rows ≠ []

/-- The test has no truth value on a node. -/
def Test.Undecided (D : List Quad) (limits : RecursionLimits) : Test → Node → Prop
  | .isA _, _ => False
  | .and left right, v => (left.Undecided D limits v ∨ right.Undecided D limits v) ∧
      ¬ (Test.not left).Satisfied D limits (some v) ∧
      ¬ (Test.not right).Satisfied D limits (some v)
  | .or left right, v => (left.Undecided D limits v ∨ right.Undecided D limits v) ∧
      ¬ left.Satisfied D limits (some v) ∧ ¬ right.Satisfied D limits (some v)
  | .not inner, v => inner.Undecided D limits v
  | .comparison op left right, v => ∃ x y, left.given? limits v = some x ∧
      right.given? limits v = some y ∧ op.apply x y = none
  | .pathEquality left right, v => ∃ x y, left.given? limits v = some x ∧
      right.given? limits v = some y ∧ Comparison.eq.apply x y = none
  | .pathExists _, _ => False
  | .language _, v => v.literal? = none
  | .datatype _, v => v.literal? = none
termination_by structural t => t

section

variable {D : List Quad} {limits : RecursionLimits} {t : Test}

private theorem ne_nil_iff_verdict {context : Variable} {seed : Row}
    (run : Selector.Run D limits (.testing .self t) context seed)
    (hcontext : ¬ run.allocator.Pending context) :
    run.rows ≠ [] ↔ t.verdict D limits (seed.value? context) = some true := by
  obtain ⟨first, inner, hfirst, hinner, hem⟩ := testing_ok run.compiled
  rw [selector, governed_selectorRule] at hfirst
  cases hfirst
  have ht := ((faultIs_test limits t context).ok_iff run.allocator).1 ⟨inner, hinner⟩
  obtain ⟨em, henclosed⟩ := exists_enclosed_ok ht context run.allocator
  rw [run.rows_eq, hem, verdict_eq hcontext henclosed run.avoids,
    ← exists_found_required_iff hinner henclosed]
  exact ⟨List.exists_mem_of_ne_nil _, fun h => h.elim fun x hx => List.ne_nil_of_mem hx⟩

private theorem satisfied_iff (value : Option Node) :
    t.Satisfied D limits value ↔ t.verdict D limits value = some true := by
  constructor
  · rintro ⟨context, seed, run, hcontext, rfl, hrows⟩
    exact (ne_nil_iff_verdict run hcontext).1 hrows
  · intro hverdict
    let a := Allocator.ofSettings {}
    have hroot : ¬ a.Pending a.root := a.root_not_pending
    have hfault : (Selector.testing .self t).fault? limits = none :=
      fault?_eq_none_of_verdict hverdict
    obtain ⟨em, hem, -⟩ := (faultIs_selector limits (.testing .self t) a.root).succeeds a hfault
    have hseed := avoids_single hroot value
    have hvalue : (Row.single a.root value).value? a.root = value := by
      rw [Row.value?_single, if_pos rfl]
    obtain ⟨cap, hcap⟩ := (Group.rows_settles D em.elements [Row.single a.root value]).exists_ok
    let run : Selector.Run D limits (.testing .self t) a.root (Row.single a.root value) :=
      ⟨a, em, cap, _, hseed, hem, hcap⟩
    refine ⟨a.root, Row.single a.root value, run, hroot, hvalue, ?_⟩
    rw [ne_nil_iff_verdict run hroot, hvalue, hverdict]

private theorem satisfied_not_iff (ht : t.fault? limits = none) (value : Option Node) :
    (Test.not t).Satisfied D limits value ↔ t.verdict D limits value = some false := by
  rw [satisfied_iff, verdict_not ht, Option.map_eq_some_iff]
  simp

/-! ## Where there is no verdict -/

private theorem bothTrue_eq_none_iff (x y : Option Bool) : bothTrue x y = none ↔
    (x = none ∨ y = none) ∧ x ≠ some false ∧ y ≠ some false := by
  rcases x with _ | _ | _ <;> rcases y with _ | _ | _ <;> simp [bothTrue]

private theorem someTrue_eq_none_iff (x y : Option Bool) : someTrue x y = none ↔
    (x = none ∨ y = none) ∧ x ≠ some true ∧ y ≠ some true := by
  rcases x with _ | _ | _ <;> rcases y with _ | _ | _ <;> simp [someTrue]

private theorem verdict_compared {op : Comparison} {left right : Selector}
    (htest : ∀ context, test .builtin limits t context = compared limits op left right context)
    (ht : t.fault? limits = none) (v : Node) :
    t.verdict D limits (some v) = none ↔ ∃ x y, left.given? limits v = some x ∧
      right.given? limits v = some y ∧ op.apply x y = none := by
  let a := Allocator.ofSettings {}
  have hroot : ¬ a.Pending a.root := a.root_not_pending
  obtain ⟨inner, hinner, -⟩ := (faultIs_test limits t a.root).succeeds a ht
  have hinner' := hinner
  rw [htest] at hinner'
  have hsilent := compared_silent_iff hinner'
  rw [Bool.and_eq_true] at hsilent
  obtain ⟨l, rest, hl, hrest, rfl⟩ := bind_ok hinner'
  obtain ⟨l', last, hl', hlast, rfl⟩ := bind_ok hrest
  cases hlast
  have hgiven := (given_of_asOperand hl).2
  have hgiven' := (given_of_asOperand hl').2
  have hvalue : (Row.single a.root (some v)).value? a.root = some v := by
    rw [Row.value?_single, if_pos rfl]
  by_cases hbare : left.bare limits = true ∧ right.bare limits = true
  · obtain ⟨x, hx⟩ := Option.isSome_iff_exists.1 ((left.isSome_given? limits v).trans hbare.1)
    obtain ⟨y, hy⟩ := Option.isSome_iff_exists.1 ((right.isSome_given? limits v).trans hbare.2)
    have hverdict := verdict_of_silent (D := D) hroot hinner (hsilent.2 hbare)
      (avoids_single hroot (some v))
    rw [hvalue, Expr.value?, truth?_ofTruth, hgiven D _ v x hvalue hx,
      hgiven' D _ v y hvalue hy] at hverdict
    simp [hverdict, hx, hy]
  · have hsome := verdict_isSome_of_written (D := D) hroot hinner
      (fun hnil => hbare (hsilent.1 hnil)) (some v)
    refine iff_of_false (fun hnone => by simp [hnone] at hsome) ?_
    rintro ⟨x, y, hx, hy, -⟩
    refine hbare ⟨?_, ?_⟩
    · rw [← left.isSome_given? limits v, hx]
      rfl
    · rw [← right.isSome_given? limits v, hy]
      rfl

private theorem truth?_languageCondition (tag : String) (context : Variable) (r : Row) {v : Node}
    (hv : r.value? context = some v) :
    truth? (Expr.value? D (languageCondition tag context) r) = none ↔ v.literal? = none := by
  cases v with
  | iri i =>
    simp [languageCondition, Expr.value?, Expr.values?, Expr.var, Term.value?, hv, Builtin.apply,
      truth?, Node.literal?]
  | literal l =>
    refine iff_of_false ?_ (by simp [Node.literal?])
    simp only [languageCondition, Expr.value?, Expr.values?, Expr.var, Expr.literal, Term.literal,
      Term.value?, hv, Builtin.apply, Node.plain, Option.bind_some, Option.map_some]
    exact fun h => by cases (truth?_ofTruth (some _)).symm.trans h

private theorem truth?_datatypeCondition (type : Iri) (context : Variable) (r : Row) {v : Node}
    (hv : r.value? context = some v) :
    truth? (Expr.value? D (datatypeCondition type context) r) = none ↔ v.literal? = none := by
  rw [datatypeCondition, Expr.equals, Expr.value?, truth?_ofTruth]
  cases v with
  | iri i =>
    simp [Expr.value?, Expr.values?, Expr.var, Term.value?, hv, Builtin.apply, Node.literal?]
  | literal l =>
    simp [Expr.value?, Expr.values?, Expr.var, Term.value?, Term.iri, hv, Builtin.apply,
      Node.literal?, Comparison.apply, Node.number?]

private theorem undecided_iff (t : Test) (ht : t.fault? limits = none) (v : Node) :
    t.verdict D limits (some v) = none ↔ t.Undecided D limits v := by
  let a := Allocator.ofSettings {}
  have hroot : ¬ a.Pending a.root := a.root_not_pending
  have hr := avoids_single hroot (some v)
  have hvalue : (Row.single a.root (some v)).value? a.root = some v := by
    rw [Row.value?_single, if_pos rfl]
  obtain ⟨inner, hinner, -⟩ := (faultIs_test limits t a.root).succeeds a ht
  cases t with
  | isA type =>
    exact iff_of_false (Option.isSome_iff_ne_none.1 (verdict_isSome_of_isA ht (some v))) id
  | and left right =>
    obtain ⟨hleft, hright⟩ := Option.or_eq_none_iff.1 ht
    rw [verdict_and ht, bothTrue_eq_none_iff, undecided_iff left hleft v,
      undecided_iff right hright v, Test.Undecided, satisfied_not_iff hleft,
      satisfied_not_iff hright]
  | or left right =>
    obtain ⟨hleft, hright⟩ := Option.or_eq_none_iff.1 ht
    rw [verdict_or ht, someTrue_eq_none_iff, undecided_iff left hleft v,
      undecided_iff right hright v, Test.Undecided, satisfied_iff, satisfied_iff]
  | not negated =>
    have hnegated : negated.fault? limits = none := ht
    rw [verdict_not hnegated, Option.map_eq_none_iff, undecided_iff negated hnegated v,
      Test.Undecided]
  | comparison op left right =>
    exact verdict_compared (fun context => by rw [test, governed_testRule]; rfl) ht v
  | pathEquality left right =>
    exact verdict_compared (fun context => by rw [test, governed_testRule]; rfl) ht v
  | pathExists path =>
    exact iff_of_false (Option.isSome_iff_ne_none.1 (verdict_isSome_of_pathExists ht (some v))) id
  | language tag =>
    have hverdict := verdict_of_silent (D := D) hroot hinner
    rw [test, governed_testRule] at hinner
    cases hinner
    have htruth := hverdict rfl hr
    rw [hvalue] at htruth
    rw [htruth, truth?_languageCondition tag a.root _ hvalue, Test.Undecided]
  | datatype type =>
    have hverdict := verdict_of_silent (D := D) hroot hinner
    rw [test, governed_testRule] at hinner
    cases hinner
    have htruth := hverdict rfl hr
    rw [hvalue] at htruth
    rw [htruth, truth?_datatypeCondition type a.root _ hvalue, Test.Undecided]
termination_by structural t

/-! ## Negation -/

/-- A selector tested for a negation has a match exactly if in one of its rows the value that it
gives, if any, satisfies the negation. -/
theorem testing_not_ne_nil_iff {d : Selector} {context : Variable} {seed : Row} {c : Node}
    (hc : seed.value? context = some c)
    (tested : Selector.Run D limits (.testing d (.not t)) context seed)
    (run : Selector.Run D limits d context seed) :
    tested.rows ≠ [] ↔
      ∃ row ∈ run.rows, (Test.not t).Satisfied D limits (row.value? run.emission.value) := by
  simp only [satisfied_iff]
  exact testing_ne_nil_iff hc (fun h => not_supplies_of_silent not_silent h.2) tested run

private theorem satisfied_not_iff_fails (ht : t.fault? limits = none) (v : Node) :
    (Test.not t).Satisfied D limits (some v) ↔
      ¬ t.Undecided D limits v ∧ ¬ t.Satisfied D limits (some v) := by
  rw [satisfied_not_iff ht, satisfied_iff, ← undecided_iff t ht v]
  rcases t.verdict D limits (some v) with _ | _ | _ <;> simp

/-- A test that compiles is satisfied whatever row, names and cap it is asked with. Where it is
undecided, neither it nor its negation is satisfied; elsewhere its negation is satisfied exactly if
it is not. A selector tested for the negation matches if one of its values fails the test, and only
then if it gives a value in each of its rows. -/
theorem negation_complement {context : Variable} {seed : Row} {v : Node}
    (run : Selector.Run D limits (.testing .self t) context seed)
    (hv : seed.value? context = some v) :
    (run.rows ≠ [] ↔ t.Satisfied D limits (some v)) ∧
    (t.Undecided D limits v →
      ¬ t.Satisfied D limits (some v) ∧ ¬ (Test.not t).Satisfied D limits (some v)) ∧
    (¬ t.Undecided D limits v →
      ((Test.not t).Satisfied D limits (some v) ↔ ¬ t.Satisfied D limits (some v))) ∧
    ∀ (d : Selector) (context' : Variable) (seed' : Row) (c : Node),
      seed'.value? context' = some c →
      ∀ (tested : Selector.Run D limits (.testing d (.not t)) context' seed')
        (paths : Selector.Run D limits d context' seed'),
        let fails := ∃ w ∈ paths.values, ¬ t.Undecided D limits w ∧ ¬ t.Satisfied D limits (some w)
        (fails → tested.rows ≠ []) ∧
        ((∀ row ∈ paths.rows, (row.value? paths.emission.value).isSome = true) →
          tested.rows ≠ [] → fails) := by
  have ht : t.fault? limits = none :=
    ((faultIs_selector limits (.testing .self t) context).ok_iff _).1 ⟨_, run.compiled⟩
  have hrows := ne_nil_iff_verdict run (run.avoids.not_pending hv)
  rw [hv, ← satisfied_iff] at hrows
  refine ⟨hrows, fun hundecided => ⟨?_, ?_⟩, fun hdecided => ?_, ?_⟩
  · rw [satisfied_iff, (undecided_iff t ht v).2 hundecided]
    simp
  · rw [satisfied_not_iff_fails ht v]
    exact fun h => h.1 hundecided
  · rw [satisfied_not_iff_fails ht v, and_iff_right hdecided]
  · intro d context' seed' c hc tested paths fails
    have hmatches := testing_not_ne_nil_iff hc tested paths
    constructor
    · rintro ⟨w, ⟨row, hrow, hw⟩, hfails⟩
      refine hmatches.2 ⟨row, hrow, ?_⟩
      rw [hw]
      exact (satisfied_not_iff_fails ht w).2 hfails
    · intro hvalues hne
      obtain ⟨row, hrow, hsatisfied⟩ := hmatches.1 hne
      obtain ⟨w, hw⟩ := Option.isSome_iff_exists.1 (hvalues row hrow)
      rw [hw] at hsatisfied
      exact ⟨w, ⟨row, hrow, hw⟩, (satisfied_not_iff_fails ht w).1 hsatisfied⟩

end

/-- A number that is compared, and has no language: it fails the test, and its subject matches by
the negation. -/
theorem negation_complement_number :
    let v : Node := .literal (.integer 7)
    let p : Iri := ⟨"http://e/p"⟩
    let D : List Quad := [⟨⟨"http://e/a"⟩, p, v, none⟩]
    let t : Test := .or (.language "en") (.comparison .lt .self (.constant (.literal (.integer 5))))
    let x : Variable := ⟨"x"⟩
    let seed := Row.bind .empty x v
    let subject := Row.bind .empty x (.iri ⟨"http://e/a"⟩)
    (∃ run : Selector.Run D {} (.testing .self t) x seed, seed.value? x = some v ∧
      ¬ t.Undecided D {} v ∧ run.rows = [] ∧ (Test.not t).Satisfied D {} (some v)) ∧
    ∃ tested : Selector.Run D {} (.testing (.property p) (.not t)) x subject, tested.rows ≠ [] := by
  intro v p D t x seed subject
  have hv : seed.value? x = some v := by simp [seed]
  have hdecided : ¬ t.Undecided D {} v := by
    rw [← undecided_iff t (by decide +kernel)]
    decide +kernel
  have hrefused : ¬ t.Satisfied D {} (some v) := by
    rw [satisfied_iff]
    decide +kernel
  have hseed (n : Node) : (Row.bind .empty x n).Avoids (.ofSettings {}) :=
    Row.avoids_bind_empty (Allocator.root_not_pending (.ofSettings {})) n
  obtain ⟨em, hem⟩ := exists_ok_of_isOk (by decide +kernel : (Compile.selector .builtin {}
    (.testing .self t) x (.ofSettings {})).isOk = true)
  obtain ⟨run, -⟩ := Selector.Run.exists_of_compiled D (hseed v) hem
  obtain ⟨hrows, -, hnot, hmatches⟩ := negation_complement run hv
  refine ⟨⟨run, hv, hdecided, not_not.1 fun h => hrefused (hrows.1 h),
    (hnot hdecided).2 hrefused⟩, ?_⟩
  obtain ⟨em', hem'⟩ := exists_ok_of_isOk (by decide +kernel : (Compile.selector .builtin {}
    (.testing (.property p) (.not t)) x (.ofSettings {})).isOk = true)
  obtain ⟨tested, -⟩ := Selector.Run.exists_of_compiled D (hseed (.iri ⟨"http://e/a"⟩)) hem'
  have houtputs : Selector.Run.outputs? D {} (.property p) x subject (.ofSettings {}) 1 =
      some [some v] := by decide +kernel
  obtain ⟨paths, hvalues⟩ := Selector.Run.exists_of_outputs (hseed (.iri ⟨"http://e/a"⟩)) houtputs
  exact ⟨tested, (hmatches (.property p) x subject (.iri ⟨"http://e/a"⟩) (by simp [subject]) tested
    paths).1 ⟨v, by simp [hvalues], hdecided, hrefused⟩⟩

/-- A resource satisfies neither a test for a language nor its negation. -/
theorem language_undecided :
    let v : Node := .iri ⟨"http://e/a"⟩
    let D : List Quad := [⟨⟨"http://e/a"⟩, Iri.rdfType, .iri ⟨"http://e/T"⟩, none⟩]
    ¬ ((Test.not (.language "en")).Satisfied D {} (some v) ↔
      ¬ (Test.language "en").Satisfied D {} (some v)) := by
  intro v D
  rw [satisfied_iff, satisfied_iff]
  decide +kernel

end GraphPath
