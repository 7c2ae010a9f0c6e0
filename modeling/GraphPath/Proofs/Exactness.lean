import GraphPath.Proofs.Conjunction
import GraphPath.Proofs.Navigation

/-!
# Exact results

A session that asks for types and for navigational criteria returns exactly the resources that have
the types and, for each criterion on its own, a value that meets the criterion.
-/

namespace GraphPath

open Emit Compile

/-- The value matches what is expected of it. -/
def Constraint.Accepts (c : Constraint) (v : Node) : Prop :=
  match c.op with
  | .comparison op => op.apply v c.expected = some true
  | .contains => c.expected.text.toList <:+: v.text.toList

/-- The resource meets the criterion: some value to which the selector leads is accepted. -/
def Criterion.MetBy (D : List Quad) (maxDepth : Nat) (k : Criterion) (c : Node) : Prop :=
  ∃ v, k.selector.Leads D maxDepth c v ∧ ∀ constraint ∈ k.constraint, constraint.Accepts v

private theorem occursIn_iff (part whole : List Char) :
    occursIn part whole = true ↔ part <:+: whole := by
  induction whole with
  | nil => simp [occursIn]
  | cons c rest ih => rw [occursIn, Bool.or_eq_true, ih, List.isPrefixOf_iff_prefix,
      List.infix_cons_iff]

private theorem truth?_condition {D : List Quad} {c : Constraint} {value : Variable} {row : Row}
    {v : Node} (hv : row.value? value = some v) :
    truth? (Expr.value? D (c.condition value) row) = some true ↔ c.Accepts v := by
  unfold Constraint.condition Constraint.Accepts
  cases c.op with
  | comparison op => simp [Expr.value?, Expr.var, Term.value?, hv]
  | contains =>
    have hvalue : Expr.value? D (.call .contains [.call .str [.var value],
        .literal (.plain c.expected.text)]) row =
          ofTruth (some (occursIn c.expected.text.toList v.text.toList)) := by
      simp [Expr.value?, Expr.values?, Expr.var, Expr.literal, Term.value?, Term.literal, hv,
        Builtin.apply, Node.plain, Literal.plain, ofTruth]
    rw [hvalue, truth?_ofTruth, Option.some_inj, occursIn_iff]

/-- Compiled on a stored resource, a navigational criterion matches exactly if it is met. -/
theorem exists_found_criterion_iff {D : List Quad} (hD : ∀ q ∈ D, q.object.number? ≠ some .nan)
    {limits : RecursionLimits} {k : Criterion} (hk : k.selector.isNavigational = true)
    {root : Variable} {a : Allocator} {em : Emission Unit} (hroot : ¬ a.Pending root)
    (hem : k.emit .builtin limits root a = .ok em) {c : Node} (hstored : c.StoredIn D) :
    (∃ row, row ∈ Group.found D em.elements (Row.bind .empty root c)) ↔
      k.MetBy D limits.maxDepth c := by
  obtain ⟨first, hfirst, -, helements⟩ := Criterion.emit_ok hem
  have htraces := traces_selector hD limits k.selector hk root a first hroot hfirst
  have hseed := Row.avoids_bind_empty hroot c
  have hc : (Row.bind .empty root c).value? root = some c := by simp
  have hvalues := htraces.values _ c hseed hc hstored
  rw [helements]
  unfold Criterion.MetBy
  cases hcon : k.constraint with
  | none =>
    simp only [Option.map_none, Option.toList_none, List.append_nil, Option.mem_def, reduceCtorEq,
      false_implies, implies_true, and_true]
    constructor
    · rintro ⟨row, hrow⟩
      obtain ⟨n, -, hn⟩ := htraces.exists_value hseed hc hstored hrow
      exact ⟨n, hn⟩
    · rintro ⟨n, hn⟩
      obtain ⟨row, hrow, -⟩ := (hvalues n).2 hn
      exact ⟨row, hrow⟩
  | some constraint =>
    simp only [Option.map_some, Option.toList_some, Group.found_filter, List.mem_filter,
      decide_eq_true_eq, Option.mem_def, Option.some_inj, forall_eq']
    constructor
    · rintro ⟨row, hrow, htrue⟩
      obtain ⟨n, hn, hleads⟩ := htraces.exists_value hseed hc hstored hrow
      exact ⟨n, hleads, (truth?_condition hn).1 htrue⟩
    · rintro ⟨n, hleads, haccepts⟩
      obtain ⟨row, hrow, hn⟩ := (hvalues n).2 hleads
      exact ⟨row, hrow, (truth?_condition hn).2 haccepts⟩

/-- A session with types and navigational criteria returns, each once, exactly the resources that
have the types and meet every criterion, by the statements that it sees. -/
theorem session_exact {s : Session} {store : Store}
    (hD : ∀ q ∈ store.quads, q.object.number? ≠ some .nan) (hregistry : s.registry = .builtin)
    (hdistinct : s.settings.distinct = true) (htypes : s.types ≠ [])
    (hcriteria : ∀ k ∈ s.criteria, k.selector.isNavigational = true) (horder : s.orderBy = [])
    (hlimit : s.limit = none) (hoffset : s.offset = none) {results : List Iri}
    (h : s.execute store.select = .ok results) :
    results.Nodup ∧ ∀ i, i ∈ results ↔
      (∀ t ∈ s.types, Node.HasType (store.quads.filter (Quad.isVisible s.graph)) (.iri i) t) ∧
      ∀ k ∈ s.criteria, k.MetBy (store.quads.filter (Quad.isVisible s.graph))
        s.settings.recursion.maxDepth (.iri i) := by
  obtain ⟨em, hem, hnodup, hmem⟩ := Session.execute_ok hlimit hoffset h
  refine ⟨hnodup hdistinct, fun i => ?_⟩
  obtain ⟨-, ems, a', hruns, helements⟩ := Session.emit_ok horder hem
  have hvisible : ∀ q ∈ store.quads.filter (Quad.isVisible s.graph),
      q.object.number? ≠ some .nan := fun q hq => hD q (List.mem_of_mem_filter hq)
  have hroot : ¬ (Allocator.ofSettings s.settings).Pending s.root :=
    Allocator.root_not_pending (.ofSettings s.settings)
  rw [hregistry] at hruns
  have hstays := stays_criteria s.settings.recursion s.criteria s.root
  rw [hmem, helements, ← typePattern, exists_found_pattern_iff htypes hroot hruns hstays]
  refine and_congr_right fun htyped => ?_
  obtain ⟨t, ht⟩ := List.exists_mem_of_ne_nil _ htypes
  have hems := (hruns.forall₂ hstays).2
  rw [List.forall₂_map_left_iff] at hems
  refine (forall_mem_iff_of_forall₂ ((List.forall₂_and_left s.criteria _).2
    ⟨hcriteria, hems⟩) ?_).symm
  rintro k em ⟨hk, b, hb, hab, -⟩
  exact (exists_found_criterion_iff hvisible hk (fun hp => hroot (hab _ hp)) hb
    (htyped t ht).storedIn).symm

/-- Two resources of one type, of which one leads to the other and so to a text. -/
theorem session_exact_two_criteria :
    let t : Iri := ⟨"http://e/T"⟩
    let p : Iri := ⟨"http://e/p"⟩
    let store : Store := { quads := [⟨⟨"http://e/a"⟩, Iri.rdfType, .iri t, none⟩,
      ⟨⟨"http://e/a"⟩, p, .literal (.plain "abc"), none⟩,
      ⟨⟨"http://e/b"⟩, Iri.rdfType, .iri t, none⟩,
      ⟨⟨"http://e/b"⟩, p, .iri ⟨"http://e/a"⟩, none⟩] }
    let s : Session := { Session.start .builtin {} none with
      types := [t]
      criteria := [⟨.path (.recursive (.property p) 0 (some 1)) (.property p),
        some ⟨.contains, .plain "bc"⟩⟩, ⟨.union .self (.reverse p), none⟩] }
    ∃ results, s.execute store.select = .ok results ∧ results.Nodup ∧ ∀ i, i ∈ results ↔
      (∀ t ∈ s.types, Node.HasType (store.quads.filter (Quad.isVisible none)) (.iri i) t) ∧
      ∀ k ∈ s.criteria, k.MetBy (store.quads.filter (Quad.isVisible none)) 5 (.iri i) := by
  intro t p store s
  obtain ⟨results, hresults⟩ : ∃ results, s.execute store.select = .ok results :=
    exists_ok_of_isOk (by decide +kernel)
  exact ⟨results, hresults, session_exact (by decide +kernel) rfl rfl (by decide) (by decide) rfl
    rfl rfl hresults⟩

end GraphPath
