import GraphPath.Proofs.Tested

/-!
# Boolean laws of tests

Tests obey the laws of Boolean algebra: double negation, those of De Morgan, and that conjunction
and disjunction commute, associate and distribute. Verdicts do so although they may be missing, so
two tests that a law equates compile together and have the same verdict on every value. A tested
selector can tell them apart only by the patterns that they write into its group. A compound test
writes none, hence double negation alone has an exception.
-/

namespace GraphPath

open Emit Compile

/-- Two tests that a law of Boolean algebra equates. -/
inductive Test.Equated : Test → Test → Prop
  | not_not (t : Test) : Equated (.not (.not t)) t
  | not_or (t u : Test) : Equated (.not (.or t u)) (.and (.not t) (.not u))
  | not_and (t u : Test) : Equated (.not (.and t u)) (.or (.not t) (.not u))
  | and_comm (t u : Test) : Equated (.and t u) (.and u t)
  | or_comm (t u : Test) : Equated (.or t u) (.or u t)
  | and_assoc (t u w : Test) : Equated (.and (.and t u) w) (.and t (.and u w))
  | or_assoc (t u w : Test) : Equated (.or (.or t u) w) (.or t (.or u w))
  | and_or (t u w : Test) : Equated (.and t (.or u w)) (.or (.and t u) (.and t w))

/-- Whether the parts of a test are compiled in scopes of their own. -/
def Test.isCompound : Test → Bool
  | .and _ _ => true
  | .or _ _ => true
  | .not _ => true
  | _ => false

/-! ## Three-valued logic -/

section

variable (x y z : Option Bool)

private theorem map_not_map_not : (x.map not).map not = x := by
  rcases x with _ | _ | _ <;> rfl

private theorem map_not_someTrue : (someTrue x y).map not = bothTrue (x.map not) (y.map not) := by
  rcases x with _ | _ | _ <;> rcases y with _ | _ | _ <;> rfl

private theorem map_not_bothTrue : (bothTrue x y).map not = someTrue (x.map not) (y.map not) := by
  rcases x with _ | _ | _ <;> rcases y with _ | _ | _ <;> rfl

private theorem bothTrue_comm : bothTrue x y = bothTrue y x := by
  rcases x with _ | _ | _ <;> rcases y with _ | _ | _ <;> rfl

private theorem someTrue_comm : someTrue x y = someTrue y x := by
  rcases x with _ | _ | _ <;> rcases y with _ | _ | _ <;> rfl

private theorem bothTrue_assoc : bothTrue (bothTrue x y) z = bothTrue x (bothTrue y z) := by
  rcases x with _ | _ | _ <;> rcases y with _ | _ | _ <;> rcases z with _ | _ | _ <;> rfl

private theorem someTrue_assoc : someTrue (someTrue x y) z = someTrue x (someTrue y z) := by
  rcases x with _ | _ | _ <;> rcases y with _ | _ | _ <;> rcases z with _ | _ | _ <;> rfl

private theorem bothTrue_someTrue :
    bothTrue x (someTrue y z) = someTrue (bothTrue x y) (bothTrue x z) := by
  rcases x with _ | _ | _ <;> rcases y with _ | _ | _ <;> rcases z with _ | _ | _ <;> rfl

end

/-! ## Equated tests -/

section

variable {D : List Quad} {limits : RecursionLimits} {t t' u : Test}

private theorem fault?_and : (Test.and t u).fault? limits = none ↔
    t.fault? limits = none ∧ u.fault? limits = none :=
  Option.or_eq_none_iff

private theorem fault?_or : (Test.or t u).fault? limits = none ↔
    t.fault? limits = none ∧ u.fault? limits = none :=
  Option.or_eq_none_iff

private theorem fault?_not : (Test.not t).fault? limits = none ↔ t.fault? limits = none := Iff.rfl

private theorem not_supplies_of_isCompound (ht : t.isCompound = true) : ¬ t.Supplies D limits := by
  refine not_supplies_of_silent fun {context a em} hem => ?_
  cases t with
  | and left right =>
    rw [test, governed_testRule] at hem
    change joined limits .both left right context a = .ok em at hem
    exact joined_silent hem
  | or left right =>
    rw [test, governed_testRule] at hem
    change joined limits .oneOf left right context a = .ok em at hem
    exact joined_silent hem
  | not inner => exact not_silent hem
  | _ => cases ht

namespace Test.Equated

private theorem fault?_iff (law : Equated t t') :
    t.fault? limits = none ↔ t'.fault? limits = none := by
  cases law <;> simp only [fault?_and, fault?_or, fault?_not] <;> tauto

private theorem isCompound_left (law : Equated t t') : t.isCompound = true := by
  cases law <;> rfl

private theorem isCompound_right (law : Equated t t') :
    t'.isCompound = true ∨ t = .not (.not t') := by
  cases law with
  | not_not t => exact .inr rfl
  | _ => exact .inl rfl

private theorem verdict_eq (law : Equated t t') (ht : t.fault? limits = none)
    (value : Option Node) :
    t.verdict D limits value = t'.verdict D limits value := by
  cases law with
  | not_not t =>
    have hnot : (Test.not t').fault? limits = none := fault?_not.1 ht
    rw [verdict_not hnot, verdict_not (fault?_not.1 hnot), map_not_map_not]
  | not_or t u =>
    obtain ⟨ht, hu⟩ := fault?_or.1 ht
    simp only [verdict_not, verdict_and, verdict_or, fault?_and, fault?_or, fault?_not, ht, hu,
      and_self, map_not_someTrue]
  | not_and t u =>
    obtain ⟨ht, hu⟩ := fault?_and.1 ht
    simp only [verdict_not, verdict_and, verdict_or, fault?_and, fault?_or, fault?_not, ht, hu,
      and_self, map_not_bothTrue]
  | and_comm t u =>
    obtain ⟨ht, hu⟩ := fault?_and.1 ht
    simp only [verdict_and, fault?_and, ht, hu, and_self]
    exact bothTrue_comm _ _
  | or_comm t u =>
    obtain ⟨ht, hu⟩ := fault?_or.1 ht
    simp only [verdict_or, fault?_or, ht, hu, and_self]
    exact someTrue_comm _ _
  | and_assoc t u w =>
    obtain ⟨htu, hw⟩ := fault?_and.1 ht
    obtain ⟨ht, hu⟩ := fault?_and.1 htu
    simp only [verdict_and, fault?_and, ht, hu, hw, and_self, bothTrue_assoc]
  | or_assoc t u w =>
    obtain ⟨htu, hw⟩ := fault?_or.1 ht
    obtain ⟨ht, hu⟩ := fault?_or.1 htu
    simp only [verdict_or, fault?_or, ht, hu, hw, and_self, someTrue_assoc]
  | and_or t u w =>
    obtain ⟨ht, huw⟩ := fault?_and.1 ht
    obtain ⟨hu, hw⟩ := fault?_or.1 huw
    simp only [verdict_and, verdict_or, fault?_and, fault?_or, ht, hu, hw, and_self,
      bothTrue_someTrue]

end Test.Equated

private theorem mem_values_testing_iff {d : Selector} {context : Variable} {seed : Row} {c : Node}
    (hc : seed.value? context = some c)
    (run : Selector.Run D limits (.testing d t) context seed) :
    c ∈ run.values ↔ run.rows ≠ [] := by
  have hkept : ∀ row ∈ run.rows, row.value? run.emission.value = some c := by
    obtain ⟨first, inner, -, -, hem⟩ := testing_ok run.compiled
    intro row hrow
    rw [run.rows_eq] at hrow
    rw [hem]
    exact (Group.found_grows hrow).below context c hc
  constructor
  · rintro ⟨row, hrow, -⟩
    exact List.ne_nil_of_mem hrow
  · intro hrows
    obtain ⟨row, hrow⟩ := List.exists_mem_of_ne_nil _ hrows
    exact ⟨row, hrow, hkept row hrow⟩

/-- Tests that a law equates compile together, and a selector tested for one keeps its context
exactly if it does so tested for the other. Double negation has one exception: a selector that
leaves open an output that its filters read, tested for what finds a value for it. -/
theorem equated_tests_agree (law : Test.Equated t t') (limits : RecursionLimits) (d : Selector) :
    (∀ context context' a a',
      (∃ em, selector .builtin limits (.testing d t) context a = .ok em) ↔
        ∃ em, selector .builtin limits (.testing d t') context' a' = .ok em) ∧
    ∀ (D : List Quad) (context : Variable) (seed : Row) (c : Node),
      seed.value? context = some c →
      (t = .not (.not t') → ¬ (d.LeavesOpen D limits context seed ∧ t'.Supplies D limits)) →
      ∀ (run : Selector.Run D limits (.testing d t) context seed)
        (run' : Selector.Run D limits (.testing d t') context seed),
        c ∈ run.values ↔ c ∈ run'.values := by
  refine ⟨fun context context' a a' => ?_, fun D context seed c hc hopen run run' => ?_⟩
  · rw [(faultIs_selector limits _ context).ok_iff, (faultIs_selector limits _ context').ok_iff]
    simp only [Selector.fault?, Option.or_eq_none_iff, law.fault?_iff]
  · obtain ⟨first, inner, hfirst, hinner, -⟩ := testing_ok run.compiled
    obtain ⟨paths, -⟩ := Selector.Run.exists_of_compiled D run.avoids hfirst
    have ht := ((faultIs_test limits t first.value).ok_iff _).1 ⟨inner, hinner⟩
    have hapart : ¬ (d.LeavesOpen D limits context seed ∧ t.Supplies D limits) := fun h =>
      not_supplies_of_isCompound law.isCompound_left h.2
    have hapart' : ¬ (d.LeavesOpen D limits context seed ∧ t'.Supplies D limits) :=
      law.isCompound_right.elim (fun h' h => not_supplies_of_isCompound h' h.2) hopen
    rw [mem_values_testing_iff hc, mem_values_testing_iff hc,
      testing_ne_nil_iff hc hapart run paths, testing_ne_nil_iff hc hapart' run' paths]
    simp only [law.verdict_eq ht]

end

/-- What a resource leads to is tested twice negated. -/
theorem equated_tests_agree_double_negation :
    let x : Variable := ⟨"x"⟩
    let a : Iri := ⟨"http://e/a"⟩
    let p : Iri := ⟨"http://e/p"⟩
    let q : Iri := ⟨"http://e/q"⟩
    let D : List Quad := [⟨a, q, .iri ⟨"http://e/c"⟩, none⟩,
      ⟨⟨"http://e/c"⟩, p, .iri ⟨"http://e/z"⟩, none⟩]
    let t : Test := .pathExists (.property p)
    let seed := Row.bind .empty x (.iri a)
    seed.value? x = some (.iri a) ∧ Test.Equated (.not (.not t)) t ∧
      ¬ (Selector.LeavesOpen D {} (.property q) x seed ∧ t.Supplies D {}) ∧
      ∃ (run : Selector.Run D {} (.testing (.property q) (.not (.not t))) x seed)
        (run' : Selector.Run D {} (.testing (.property q) t) x seed),
        .iri a ∈ run.values ∧ .iri a ∈ run'.values := by
  intro x a p q D t seed
  have hx : seed.value? x = some (.iri a) := by simp [seed]
  have hseed : seed.Avoids (.ofSettings {}) :=
    Row.avoids_bind_empty (Allocator.root_not_pending (.ofSettings {})) _
  have hclosed : ¬ (Selector.LeavesOpen D {} (.property q) x seed ∧ t.Supplies D {}) := by
    rintro ⟨⟨b, em, -, hem, ⟨e, he, -⟩, -⟩, -⟩
    rw [selector, governed_selectorRule, alongProperty_apply] at hem
    cases hem
    simp [Element.ofTriple] at he
  have houtputs : Selector.Run.outputs? D {} (.testing (.property q) (.not (.not t))) x seed
      (.ofSettings {}) 2 = some [some (.iri a)] := by decide +kernel
  obtain ⟨run, hvalues⟩ := Selector.Run.exists_of_outputs hseed houtputs
  obtain ⟨em, hem⟩ := ((equated_tests_agree (.not_not t) {} (.property q)).1 x x run.allocator
    (.ofSettings {})).1 ⟨_, run.compiled⟩
  obtain ⟨run', -⟩ := Selector.Run.exists_of_compiled D hseed hem
  have hrun : .iri a ∈ run.values := by simp [hvalues]
  exact ⟨hx, .not_not t, hclosed, run, run', hrun, ((equated_tests_agree (.not_not t) {}
    (.property q)).2 D x seed _ hx (fun _ => hclosed) run run').1 hrun⟩

/-- The length of a resource is no value, so it is none that the resource leads to. Yet tested for
what such a value leads to, the resource is kept; tested twice negated, it is not. -/
theorem double_negation_differs :
    let x : Variable := ⟨"x"⟩
    let a : Iri := ⟨"http://e/a"⟩
    let p : Iri := ⟨"http://e/p"⟩
    let q : Iri := ⟨"http://e/q"⟩
    let D : List Quad := [⟨a, q, .iri ⟨"http://e/c"⟩, none⟩,
      ⟨⟨"http://e/c"⟩, p, .iri ⟨"http://e/z"⟩, none⟩]
    let d : Selector := .intersection (.function "strlen" [.self]) (.property q)
    let t : Test := .pathExists (.property p)
    let seed := Row.bind .empty x (.iri a)
    ∃ (run : Selector.Run D {} (.testing d (.not (.not t))) x seed)
      (run' : Selector.Run D {} (.testing d t) x seed),
      seed.value? x = some (.iri a) ∧ .iri a ∉ run.values ∧ .iri a ∈ run'.values := by
  intro x a p q D d t seed
  have hseed : seed.Avoids (.ofSettings {}) :=
    Row.avoids_bind_empty (Allocator.root_not_pending (.ofSettings {})) _
  have houtputs : Selector.Run.outputs? D {} (.testing d (.not (.not t))) x seed
      (.ofSettings {}) 2 = some [] := by decide +kernel
  have houtputs' : Selector.Run.outputs? D {} (.testing d t) x seed (.ofSettings {}) 2 =
      some [some (.iri a)] := by decide +kernel
  obtain ⟨run, hvalues⟩ := Selector.Run.exists_of_outputs hseed houtputs
  obtain ⟨run', hvalues'⟩ := Selector.Run.exists_of_outputs hseed houtputs'
  exact ⟨run, run', by simp [seed], by simp [hvalues], by simp [hvalues']⟩

end GraphPath
