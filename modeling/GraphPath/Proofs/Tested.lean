import GraphPath.Proofs.Verdicts

/-!
# Tested selectors

A selector that is tested has a match exactly if in one of its rows the value that it gives, if any,
passes the test. There is one exception, since the pattern of the test is written behind that of the
selector into the same group: a row leaves the output of the selector without a value, a filter of
the selector reads the output, and the pattern of the test finds a value for it. That value is then
judged by the filters of the selector as if the selector had given it.
-/

namespace GraphPath

open Emit Compile

/-- Some row leaves the output of the selector without a value, and one of its filters reads it. -/
def Selector.LeavesOpen (D : List Quad) (limits : RecursionLimits) (d : Selector)
    (context : Variable) (seed : Row) : Prop :=
  ∃ a em, seed.Avoids a ∧ selector .builtin limits d context a = .ok em ∧
    (∃ e, .filter e ∈ em.elements ∧ em.value ∈ e.vars) ∧
    ∃ x ∈ Element.steps D em.elements seed, x.value? em.value = none

/-- The pattern of the test finds a value for a context that has none. -/
def Test.Supplies (D : List Quad) (limits : RecursionLimits) (t : Test) : Prop :=
  ∃ context a em row, ¬ a.Pending context ∧ row.Avoids a ∧
    test .builtin limits t context a = .ok em ∧ row.value? context = none ∧
    ∃ x ∈ Element.steps D em.elements row, x.value? context ≠ none

section

variable {D : List Quad} {limits : RecursionLimits} {context : Variable} {seed : Row} {c : Node}

theorem not_supplies_of_silent {t : Test} (h : ∀ {context : Variable} {a : Allocator}
    {em : Emission Expr}, test .builtin limits t context a = .ok em → em.elements = []) :
    ¬ t.Supplies D limits := by
  rintro ⟨context, a, em, row, -, -, hem, hnone, x, hx, hsome⟩
  rw [h hem, Element.steps, List.mem_singleton] at hx
  exact hsome (hx ▸ hnone)

/-- Which values a selector gives in its rows, or that it gives none, does not depend on the run. -/
theorem exists_row_iff {s : Selector} (hc : seed.value? context = some c)
    (run run' : Selector.Run D limits s context seed) (P : Option Node → Prop) :
    (∃ row ∈ run.rows, P (row.value? run.emission.value)) ↔
      ∃ row ∈ run'.rows, P (row.value? run'.emission.value) := by
  have ha := run.avoids.not_pending hc
  have hb := run'.avoids.not_pending hc
  obtain ⟨em, hem, hrenamed⟩ := exists_selector_ok ha hb run.compiled
  obtain rfl := Except.ok.inj (run'.compiled.symm.trans hem)
  have htidy := (stays_selector limits s context run.allocator run.emission run.compiled).1
  have hfound := Group.found_rename (Allocator.injOn_relabel ha hb) D run.emission.elements
    (fun v hv => htidy.vars hv) (Allocator.mirrors_relabel ha run.avoids run'.avoids rfl)
  rw [← hrenamed.elements, ← run.rows_eq, ← run'.rows_eq] at hfound
  refine exists_mem_iff_of_forall₂ hfound fun x x' hmirrors => ?_
  rw [hrenamed.value.2, hmirrors _ hrenamed.value.1]

/-- The pattern of a test leaves what the filters of the selector read, unless it finds a value for
an output that was left open. -/
theorem found_tested {d : Selector} {t : Test} {a : Allocator} {first : Emission Variable}
    {inner : Emission Expr} (hcontext : ¬ a.Pending context) (hseed : seed.Avoids a)
    (hfirst : selector .builtin limits d context a = .ok first)
    (hinner : test .builtin limits t first.value first.allocator = .ok inner)
    (houtput : ¬ first.allocator.Pending first.value)
    (hapart : ¬ (d.LeavesOpen D limits context seed ∧ t.Supplies D limits)) :
    Group.found D (first.elements ++ (inner.elements ++ filterOf inner.value)) seed =
      (Group.found D first.elements seed).flatMap
        (Group.found D (inner.elements ++ filterOf inner.value)) := by
  have htidy := (stays_selector limits d context a first hfirst).1
  have htidy' := (stays_test limits t first.value first.allocator inner hinner).1
  refine Group.found_append_of_filters fun x hx y hy e he v hv => ?_
  rw [Element.steps_append, funext (Element.steps_filterOf D inner.value),
    List.flatMap_singleton'] at hy
  have hgrows := Element.steps_grows hy
  by_cases hmem : v ∈ inner.elements.vars
  · -- Of the variables of the selector the test knows only the output.
    have hv' : v = first.value := by
      refine (htidy'.written v hmem).resolve_right fun hspent => ?_
      rcases htidy.written v (Element.mem_groupVars_of_mem he hv) with rfl | hspent'
      · exact hcontext (htidy.later _ hspent.1)
      · exact hspent'.2 hspent.1
    subst hv'
    cases hvalue : x.value? first.value with
    | some n => exact hgrows.below _ n hvalue
    | none =>
      by_contra hsome
      exact hapart ⟨⟨a, first, hseed, hfirst, ⟨e, he, hv⟩, x, hx, hvalue⟩, first.value,
        first.allocator, inner, x, houtput, htidy.avoids hcontext hseed hx, hinner, hvalue, y, hy,
        hsome⟩
  · exact hgrows.outside v hmem

/-- A tested selector has a match exactly if in one of its rows the verdict on the value that it
gives, if any, is true. -/
theorem testing_ne_nil_iff {d : Selector} {t : Test} (hc : seed.value? context = some c)
    (hapart : ¬ (d.LeavesOpen D limits context seed ∧ t.Supplies D limits))
    (tested : Selector.Run D limits (.testing d t) context seed)
    (run : Selector.Run D limits d context seed) :
    tested.rows ≠ [] ↔
      ∃ row ∈ run.rows, t.verdict D limits (row.value? run.emission.value) = some true := by
  have hcontext := tested.avoids.not_pending hc
  obtain ⟨first, inner, hfirst, hinner, hem⟩ := testing_ok tested.compiled
  obtain ⟨htidy, hvalue⟩ := stays_selector limits d context tested.allocator first hfirst
  have houtput : ¬ first.allocator.Pending first.value := by
    intro hpending
    rcases hvalue first.value (List.mem_singleton_self _) with hv | hv
    · exact hcontext (htidy.later _ (hv ▸ hpending))
    · exact hv.2 hpending
  have ht := ((faultIs_test limits t first.value).ok_iff _).1 ⟨inner, hinner⟩
  obtain ⟨em, henclosed⟩ := exists_enclosed_ok ht first.value first.allocator
  obtain ⟨first', rfl⟩ := Selector.Run.exists_of_compiled D tested.avoids hfirst
  have hkept : ∀ x ∈ first'.rows,
      ((∃ y, y ∈ Group.found D (inner.elements ++ filterOf inner.value) x) ↔
        t.verdict D limits (x.value? first'.emission.value) = some true) := by
    intro x hx
    rw [first'.rows_eq] at hx
    have havoids := htidy.avoids hcontext tested.avoids (List.mem_of_mem_filter hx)
    rw [exists_found_required_iff hinner henclosed, verdict_eq houtput henclosed havoids]
  rw [exists_row_iff hc run first' fun value => t.verdict D limits value = some true,
    tested.rows_eq, hem, found_tested hcontext tested.avoids hfirst hinner houtput hapart,
    ← first'.rows_eq, ne_eq, List.eq_nil_iff_forall_not_mem]
  simp only [List.mem_flatMap, not_forall, not_not]
  constructor
  · rintro ⟨y, x, hx, hy⟩
    exact ⟨x, hx, (hkept x hx).1 ⟨y, hy⟩⟩
  · rintro ⟨x, hx, hverdict⟩
    obtain ⟨y, hy⟩ := (hkept x hx).2 hverdict
    exact ⟨y, x, hx, hy⟩

end

end GraphPath
