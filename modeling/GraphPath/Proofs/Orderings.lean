import GraphPath.Proofs.Extensions

/-!
# Orderings keep the results

A key of an ordering stands behind the types and criteria of a session, as an optional part. It
takes every row to at least one row, which has the resource of the row it comes from: the types have
bound the root before, and no other variable is shared. So the rows have the same resources with and
without the keys, and of each only one is left where the results are distinct.
-/

namespace GraphPath

open Emit Compile

section Optionals

variable {D : List Quad}

private theorem Element.exists_mem_step_optional (inner : Group) (r : Row) :
    ∃ x, x ∈ Element.step D (.optional inner) r := by
  rw [Element.step]
  split
  · exact ⟨r, List.mem_singleton_self r⟩
  · next hmerged => exact List.exists_mem_of_ne_nil _ (by simpa using hmerged)

private theorem Group.exists_mem_found_of_optional {g : Group}
    (hg : ∀ e ∈ g, ∃ inner, e = .optional inner) (r : Row) : ∃ x, x ∈ Group.found D g r := by
  have hfilterless : ∀ e, .filter e ∉ g := by
    intro e he
    obtain ⟨inner, hinner⟩ := hg _ he
    cases hinner
  rw [Group.found_of_filterless hfilterless]
  clear hfilterless
  induction g generalizing r with
  | nil => exact ⟨r, by simp [Element.steps]⟩
  | cons e rest ih =>
    obtain ⟨⟨inner, rfl⟩, hrest⟩ := List.forall_mem_cons.1 hg
    obtain ⟨next, hnext⟩ := Element.exists_mem_step_optional (D := D) inner r
    obtain ⟨x, hx⟩ := ih hrest next
    exact ⟨x, List.mem_flatMap.2 ⟨next, hnext, hx⟩⟩

/-- Optional parts behind a group keep the values of a variable that the group has bound, if they
share no other variable with it. -/
theorem Group.exists_found_append_optional_iff {g g' : Group} {r : Row} {root : Variable}
    (hoptional : ∀ e ∈ g', ∃ inner, e = .optional inner)
    (hshared : ∀ v ∈ g.vars, v ∈ g'.vars → v = root)
    (hroot : ∀ x ∈ Element.steps D g r, (x.value? root).isSome) (n : Node) :
    (∃ y ∈ Group.found D (g ++ g') r, y.value? root = some n) ↔
      ∃ x ∈ Group.found D g r, x.value? root = some n := by
  have hfound : Group.found D (g ++ g') r = (Group.found D g r).flatMap (Group.found D g') := by
    apply Group.found_append_of_bound
    intro x hx v hv hv'
    rw [hshared v hv hv']
    exact hroot x hx
  have hkept : ∀ x ∈ Group.found D g r, ∀ y ∈ Group.found D g' x,
      y.value? root = x.value? root := by
    intro x hx y hy
    obtain ⟨m, hm⟩ := Option.isSome_iff_exists.1 (hroot x (List.mem_of_mem_filter hx))
    rw [hm, (Group.found_grows hy).below root m hm]
  rw [hfound]
  simp only [List.mem_flatMap]
  constructor
  · rintro ⟨y, ⟨x, hx, hy⟩, hn⟩
    exact ⟨x, hx, (hkept x hx y hy).symm.trans hn⟩
  · rintro ⟨x, hx, hn⟩
    obtain ⟨y, hy⟩ := Group.exists_mem_found_of_optional (D := D) hoptional x
    exact ⟨y, ⟨x, hx, hy⟩, (hkept x hx y hy).trans hn⟩

end Optionals

private theorem Emit.Runs.unique {α : Type} {ms : List (Emit α)} {a b b' : Allocator}
    {ems ems' : List (Emission α)} (h : Runs ms a ems b) (h' : Runs ms a ems' b') :
    ems = ems' := by
  induction h generalizing ems' with
  | nil a =>
    cases h'
    rfl
  | @cons m ms a b em ems head tail ih =>
    cases h' with
    | @cons _ _ _ _ em' ems' head' tail' =>
      obtain rfl : em = em' := Except.ok.inj (head.symm.trans head')
      rw [ih tail']

private theorem Group.mem_vars_flatten {gs : List Group} {v : Variable}
    (hv : v ∈ Group.vars gs.flatten) :
    ∃ g ∈ gs, v ∈ g.vars := by
  induction gs with
  | nil => simp [Group.vars, Element.groupVars] at hv
  | cons g gs ih =>
    rw [List.flatten_cons, Group.vars, Element.groupVars_append, List.mem_append] at hv
    rcases hv with hv | hv
    · exact ⟨g, List.mem_cons_self, hv⟩
    · obtain ⟨g', hg', hv⟩ := ih hv
      exact ⟨g', List.mem_cons_of_mem _ hg', hv⟩

namespace Session

variable {s : Session}

private theorem Assembly.optional_of_mem_orders {q : Query} (p : s.Assembly q)
    (hregistry : s.registry.Confined) :
    ∀ e ∈ (p.orders.map Emission.elements).flatten, ∃ inner, e = .optional inner := by
  intro e he
  obtain ⟨g, hg, he⟩ := List.mem_flatten.1 he
  obtain ⟨em, hem, rfl⟩ := List.mem_map.1 hg
  have hruns := (p.orders_run.forall₂_of_confined
    (List.forall_mem_map.2 fun key _ => confined_emitOrder hregistry key)).2
  obtain ⟨m, hm, b, hb, -⟩ := exists_of_forall₂_right hruns hem
  obtain ⟨key, -, rfl⟩ := List.mem_map.1 hm
  obtain ⟨first, -, rfl⟩ := emitOrder_ok hb
  dsimp only at he
  split at he
  · cases he
  · exact ⟨first.elements, List.mem_singleton.1 he⟩

private theorem Assembly.eq_root_of_shared {q : Query} (p : s.Assembly q)
    (hregistry : s.registry.Confined) {v : Variable}
    (hv : v ∈ Group.vars (typePattern s.root s.types ++ (p.criteria.map Emission.elements).flatten))
    (hv' : v ∈ Group.vars (p.orders.map Emission.elements).flatten) : v = s.root := by
  rw [Group.vars, Element.groupVars_append, List.mem_append] at hv
  rcases hv with hv | hv
  · exact mem_typePattern_vars hv
  · obtain ⟨g, hg, hv⟩ := Group.mem_vars_flatten hv
    obtain ⟨g', hg', hv'⟩ := Group.mem_vars_flatten hv'
    have hshare := (List.pairwise_append.1 (p.shareOnly hregistry)).2.2 g hg g' hg' v hv hv'
    exact List.mem_singleton.1 hshare

/-- The results of a session are the resources in the rows of its types and criteria, whatever its
keys are. -/
theorem mem_execute_iff (htypes : s.types ≠ []) (hlimit : s.limit = none)
    (hoffset : s.offset = none) (hregistry : s.registry.Confined) {store : Store}
    {results : List Iri} (h : s.execute store.select = .ok results) :
    ∃ criteria middle,
      Runs (s.criteria.map fun k => k.emit s.registry s.settings.recursion s.root)
        (.ofSettings s.settings) criteria middle ∧
      ∀ i, i ∈ results ↔
        ∃ row ∈ Group.found (store.quads.filter (Quad.isVisible s.graph))
          (typePattern s.root s.types ++ (criteria.map Emission.elements).flatten) .empty,
          row.value? s.root = some (.iri i) := by
  obtain ⟨em, hem, -, hmem⟩ := execute_ok hlimit hoffset h
  obtain ⟨p, -⟩ : ∃ p : s.Assembly (s.query em), p.last = em.allocator := exists_assembly hem rfl
  refine ⟨p.criteria, p.middle, p.criteria_run, fun i => (hmem i).trans ?_⟩
  have hpattern : em.elements = (typePattern s.root s.types ++
      (p.criteria.map Emission.elements).flatten) ++ (p.orders.map Emission.elements).flatten := by
    rw [List.append_assoc]
    exact p.pattern_eq
  have hbound : ∀ x ∈ Element.steps (store.quads.filter (Quad.isVisible s.graph))
      (typePattern s.root s.types ++ (p.criteria.map Emission.elements).flatten) .empty,
      (x.value? s.root).isSome := by
    intro x hx
    rw [Element.steps_append, List.mem_flatMap] at hx
    obtain ⟨typed, htyped, hx⟩ := hx
    exact (Element.steps_grows hx).below.isSome (isSome_of_mem_steps_typePattern htypes htyped)
  have hkept := Group.exists_found_append_optional_iff (p.optional_of_mem_orders hregistry)
    (fun v => p.eq_root_of_shared hregistry) hbound (.iri i)
  rwa [← hpattern] at hkept

/-- Keys change the order of the results of a session, and neither add nor drop any. -/
theorem execute_orderBy_perm (htypes : s.types ≠ []) (hdistinct : s.settings.distinct = true)
    (hlimit : s.limit = none) (hoffset : s.offset = none) (hregistry : s.registry.Confined)
    {store : Store} {results results' : List Iri} (h : s.execute store.select = .ok results)
    (h' : { s with orderBy := [] }.execute store.select = .ok results') :
    results.Perm results' := by
  obtain ⟨-, -, hnodup, -⟩ := execute_ok hlimit hoffset h
  obtain ⟨-, -, hnodup', -⟩ := execute_ok (s := { s with orderBy := [] }) hlimit hoffset h'
  obtain ⟨criteria, _, hruns, hmem⟩ := mem_execute_iff htypes hlimit hoffset hregistry h
  obtain ⟨criteria', _, hruns', hmem'⟩ := mem_execute_iff (s := { s with orderBy := [] }) htypes
    hlimit hoffset hregistry h'
  obtain rfl : criteria = criteria' := hruns.unique hruns'
  rw [List.perm_ext_iff_of_nodup (hnodup hdistinct) (hnodup' hdistinct)]
  exact fun i => (hmem i).trans (hmem' i).symm

/-- Keys with several values, with a test, with one value for all, with none, and the resource
itself, where two of the rules are those of extensions. -/
theorem execute_orderBy_perm_five_keys :
    let t : Iri := ⟨"http://e/T"⟩
    let p : Iri := ⟨"http://e/p"⟩
    let a : Iri := ⟨"http://e/a"⟩
    let b : Iri := ⟨"http://e/b"⟩
    let registry := (Registry.builtin.registerSelector .wildcard "linked" fun _ context => do
        let linked ← Emit.fresh
        Emit.writeTriple (.var context) (.iri p) (.var linked)
        return linked).registerTest .datatype "any" fun _ _ => return .always
    let store : Store := { quads := [⟨a, Iri.rdfType, .iri t, none⟩, ⟨a, p, .iri b, none⟩,
      ⟨a, p, .iri a, none⟩, ⟨b, Iri.rdfType, .iri t, none⟩, ⟨b, p, .iri a, none⟩] }
    let s : Session := { Session.start registry {} none with
      types := [t]
      criteria := [⟨.testing .self (.datatype t), none⟩]
      orderBy := [(.reverse ⟨"http://e/q"⟩, .ascending), (.constant (.iri a), .descending),
        (.testing (.property p) (.isA (.constant (.iri t))), .descending), (.wildcard, .ascending),
        (.self, .ascending)] }
    ∃ results results', s.execute store.select = .ok results ∧
      { s with orderBy := [] }.execute store.select = .ok results' ∧
      results ≠ results' ∧ results.Perm results' := by
  intro t p a b registry store s
  have hregistry : s.registry.Confined := by
    refine (Registry.confined_builtin.registerSelector _ _ fun _ context => ?_).registerTest _ _
      fun _ context => confined_done _ (by simp [Expr.vars])
    refine stays_fresh.confined.bind fun linked => (confined_write ?_).bind fun _ =>
      confined_done linked (by simp)
    simp [Element.ofTriple, Element.vars, TriplePattern.vars, Term.vars, Term.iri]
  have h : (s.execute store.select).toOption.any (· == [b, a]) = true := by decide +kernel
  have h' : ({ s with orderBy := [] }.execute store.select).toOption.any (· == [a, b]) = true := by
    decide +kernel
  obtain ⟨results, hresults, hfirst⟩ := exists_ok_of_any h
  obtain ⟨results', hresults', hsecond⟩ := exists_ok_of_any h'
  rw [beq_iff_eq] at hfirst hsecond
  refine ⟨results, results', hresults, hresults', ?_,
    execute_orderBy_perm (by decide) rfl rfl rfl hregistry hresults hresults'⟩
  rw [hfirst, hsecond]
  decide

end Session

end GraphPath
