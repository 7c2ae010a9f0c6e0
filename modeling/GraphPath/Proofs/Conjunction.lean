import GraphPath.Proofs.Alternatives
import GraphPath.Store.Basic

/-!
# Answers of a session

The pattern of a session is the types followed by one block for each criterion. The blocks share no
variable but the resource. So once the resource has a value, whether a block matches depends on that
value alone, and the pattern matches if every block does.
-/

namespace GraphPath

open Emit Compile

theorem Session.inOrder_emitType (root : Variable) (types : List Iri) (a : Allocator) :
    ∃ units, inOrder (types.map (emitType root)) a = .ok ⟨units,
      types.map fun t => .ofTriple (.var root) (.iri Iri.rdfType) (.iri t), a⟩ := by
  induction types with
  | nil => exact ⟨[], rfl⟩
  | cons t types ih =>
    obtain ⟨units, hunits⟩ := ih
    exact ⟨() :: units, by
      simp only [List.map_cons, inOrder, bind_apply, andThen, emitType, writeTriple, write,
        hunits, pure, done, List.append_nil, List.cons_append, List.nil_append]⟩

/-- What an emission without an ordering writes: the types, and then the criteria. -/
theorem Session.emit_ok {s : Session} {a : Allocator} {em : Emission (List OrderKey)}
    (horder : s.orderBy = []) (hem : s.emit a = .ok em) :
    em.value = [] ∧ ∃ ems a',
      Runs (s.criteria.map fun k => k.emit s.registry s.settings.recursion s.root) a ems a' ∧
      em.elements = (s.types.map fun t => .ofTriple (.var s.root) (.iri Iri.rdfType) (.iri t)) ++
        (ems.map Emission.elements).flatten := by
  obtain ⟨types, rest, htypes, hrest, rfl⟩ := bind_ok hem
  obtain ⟨criteria, last, hcriteria, hlast, rfl⟩ := bind_ok hrest
  rw [horder] at hlast
  cases hlast
  obtain ⟨units, hunits⟩ := inOrder_emitType s.root s.types a
  obtain rfl := Except.ok.inj (htypes.symm.trans hunits)
  obtain ⟨ems, hruns, -, helements⟩ := inOrder_ok hcriteria
  exact ⟨rfl, ems, _, hruns, by simp [helements]⟩

private theorem nodup_eraseDups {α : Type} [DecidableEq α] (l : List α) : l.eraseDups.Nodup := by
  induction hn : l.length using Nat.strong_induction_on generalizing l with
  | h n ih =>
    cases l with
    | nil => simp
    | cons x rest =>
      rw [List.eraseDups_cons, List.nodup_cons]
      refine ⟨by simp, ih _ ?_ _ rfl⟩
      have hle := List.length_filter_le (fun y => !y == x) rest
      simp only [List.length_cons] at hn
      omega

@[simp]
theorem Row.value?_restrict (row : Row) (v : Variable) :
    (row.restrict v).value? v = row.value? v := by
  unfold Row.restrict
  cases row.value? v <;> simp

@[simp]
theorem Node.iri?_eq_some_iff {n : Node} {i : Iri} : n.iri? = some i ↔ n = .iri i := by
  cases n <;> simp [Node.iri?]

theorem Query.mem_answers_iff {q : Query} (hlimit : q.limit = none) (hoffset : q.offset = none)
    {rows : List Row} {answer : Row} :
    answer ∈ q.answers rows ↔ ∃ row ∈ rows, row.restrict q.projection = answer := by
  have hsorted : ∀ row, row ∈ Row.sort q.orderBy rows ↔ row ∈ rows :=
    fun row => (Row.sort_perm q.orderBy rows).mem_iff
  unfold Query.answers
  rw [hlimit, hoffset]
  cases q.distinct <;> simp [hsorted]

theorem Query.nodup_answers {q : Query} (hlimit : q.limit = none) (hoffset : q.offset = none)
    (hdistinct : q.distinct = true) (rows : List Row) : (q.answers rows).Nodup := by
  unfold Query.answers
  rw [hlimit, hoffset, hdistinct]
  simpa using nodup_eraseDups _

private theorem Query.nodup_resources {q : Query} (hlimit : q.limit = none)
    (hoffset : q.offset = none) (hdistinct : q.distinct = true) (rows : List Row) :
    ((q.answers rows).filterMap fun row => (row.value? q.projection).bind Node.iri?).Nodup := by
  have hanswer : ∀ answer ∈ q.answers rows, ∀ i,
      (answer.value? q.projection).bind Node.iri? = some i →
        answer = Row.bind .empty q.projection (.iri i) := by
    intro answer hmem i hi
    obtain ⟨row, -, rfl⟩ := (Query.mem_answers_iff hlimit hoffset).1 hmem
    rw [Row.value?_restrict, Option.bind_eq_some_iff] at hi
    obtain ⟨n, hn, hni⟩ := hi
    rw [Row.restrict, hn, Node.iri?_eq_some_iff.1 hni]
  refine List.pairwise_filterMap.2 ((Query.nodup_answers hlimit hoffset hdistinct _).imp_of_mem ?_)
  rintro answer answer' hmem hmem' hne i hi j hj rfl
  exact hne ((hanswer answer hmem i hi).trans (hanswer answer' hmem' i hj).symm)

private theorem Query.mem_resources_iff {q : Query} (hlimit : q.limit = none)
    (hoffset : q.offset = none) (rows : List Row) (i : Iri) :
    i ∈ ((q.answers rows).filterMap fun row => (row.value? q.projection).bind Node.iri?) ↔
      ∃ row ∈ rows, row.value? q.projection = some (.iri i) := by
  simp [List.mem_filterMap, Query.mem_answers_iff hlimit hoffset, Option.bind_eq_some_iff]

/-- The query that a session makes of what it wrote. -/
def Session.query (s : Session) (em : Emission (List OrderKey)) : Query :=
  ⟨s.root, s.graph, em.elements, em.value, s.limit, s.offset, s.settings.distinct⟩

/-- What a session gets from a store: the answers to its query among the rows of its pattern. -/
theorem Session.select_ok_iff {s : Session} {store : Store} {answers : List Row} :
    s.select store.select = .ok answers ↔ ∃ em rows,
      s.emit (.ofSettings s.settings) = .ok em ∧
      Group.rows ⟨store.quads.filter (Quad.isVisible s.graph), store.maxRows⟩ em.elements
        [.empty] = .ok rows ∧
      answers = (s.query em).answers rows := by
  constructor
  · intro h
    obtain ⟨q, hq, hselect⟩ := exists_of_bind_ok h
    obtain ⟨em, hem, hbuild⟩ := exists_of_bind_ok (eq_ok_of_mapError_ok hq)
    obtain ⟨rows, hrows, hanswers⟩ := exists_of_bind_ok (eq_ok_of_mapError_ok hselect)
    cases hbuild
    cases hanswers
    exact ⟨em, rows, hem, hrows, rfl⟩
  · rintro ⟨em, rows, hem, hrows, rfl⟩
    simp only [select, build, hem, Store.select, Query.eval, bind, Except.bind, pure, Except.pure,
      Except.mapError, hrows]
    rfl

/-- Without bounds, the results of a session are the resources in the rows of its pattern, each once
if it is to be distinct. -/
theorem Session.execute_ok {s : Session} {store : Store} {results : List Iri}
    (hlimit : s.limit = none) (hoffset : s.offset = none)
    (h : s.execute store.select = .ok results) :
    ∃ em, s.emit (.ofSettings s.settings) = .ok em ∧
      (s.settings.distinct = true → results.Nodup) ∧
      ∀ i, i ∈ results ↔
        ∃ row ∈ Group.found (store.quads.filter (Quad.isVisible s.graph)) em.elements .empty,
          row.value? s.root = some (.iri i) := by
  obtain ⟨answers, hanswers, hresults⟩ := exists_of_bind_ok h
  obtain ⟨em, rows, hem, hrows, rfl⟩ := select_ok_iff.1 hanswers
  obtain rfl := Except.ok.inj hresults
  have hnodup := fun hdistinct =>
    Query.nodup_resources (q := s.query em) hlimit hoffset hdistinct rows
  have hmem := Query.mem_resources_iff (q := s.query em) hlimit hoffset rows
  rw [Group.rows_eq_found hrows] at hnodup hmem ⊢
  exact ⟨em, hem, hnodup, hmem⟩

/-- A statement says that the resource has the type. -/
def Node.HasType (D : List Quad) (c : Node) (t : Iri) : Prop :=
  ∃ q ∈ D, c = .iri q.subject ∧ q.predicate = Iri.rdfType ∧ q.object = .iri t

theorem Node.HasType.storedIn {D : List Quad} {c : Node} {t : Iri} (h : c.HasType D t) :
    c.StoredIn D := by
  obtain ⟨q, hq, hc, -⟩ := h
  exact ⟨q, hq, .inl hc⟩

private theorem Row.eq_bind_empty {x : Row} {v : Variable} {n : Node}
    (hbelow : x.Below (Row.bind .empty v n)) (hv : x.value? v = some n) :
    x = Row.bind .empty v n := by
  refine Row.ext_value? fun w => ?_
  cases hw : x.value? w with
  | some m => exact (hbelow w m hw).symm
  | none =>
    have hne : w ≠ v := by
      rintro rfl
      simp [hv] at hw
    simp [hne]

section Types

variable {D : List Quad} {root : Variable}

/-- The pattern that asks for types. -/
def typePattern (root : Variable) (types : List Iri) : Group :=
  types.map fun t => .ofTriple (.var root) (.iri Iri.rdfType) (.iri t)

theorem mem_typePattern_vars {types : List Iri} {v : Variable}
    (hv : v ∈ Group.vars (typePattern root types)) : v = root := by
  induction types with
  | nil => simp [typePattern, Group.vars, Element.groupVars] at hv
  | cons t types ih =>
    simp only [typePattern, Group.vars, List.map_cons, Element.groupVars, List.mem_append] at hv
    rcases hv with hv | hv
    · simpa [Element.ofTriple, Element.vars, TriplePattern.vars, Term.vars, Term.iri] using hv
    · exact ih hv

theorem hasType_of_mem_steps {types : List Iri} {r x : Row} {c : Node}
    (hx : x ∈ Element.steps D (typePattern root types) r) (hc : x.value? root = some c) :
    ∀ t ∈ types, c.HasType D t := by
  induction types generalizing r with
  | nil => simp
  | cons t types ih =>
    simp only [typePattern, List.map_cons, Element.steps, List.mem_flatMap, Element.ofTriple,
      Element.step, List.mem_filterMap] at hx
    obtain ⟨y, ⟨q, hq, hy⟩, hx⟩ := hx
    have hbelow := (Element.steps_grows hx).below
    have hstands := TriplePattern.standsFor_of_unify hy
    rw [List.forall_mem_cons]
    refine ⟨⟨q, hq, Option.some.inj (hc.symm.trans (hbelow root _ hstands.1)), ?_, ?_⟩, ih hx⟩
    · simpa [Term.iri, Term.value?, eq_comm] using hstands.2.1
    · simpa [Term.iri, Term.value?, eq_comm] using hstands.2.2

theorem isSome_of_mem_steps_typePattern {types : List Iri} (htypes : types ≠ []) {r x : Row}
    (hx : x ∈ Element.steps D (typePattern root types) r) : (x.value? root).isSome := by
  cases types with
  | nil => exact absurd rfl htypes
  | cons t types =>
    simp only [typePattern, List.map_cons, Element.steps, List.mem_flatMap, Element.ofTriple,
      Element.step, List.mem_filterMap] at hx
    obtain ⟨y, ⟨q, -, hy⟩, hx⟩ := hx
    exact (Element.steps_grows hx).below.isSome
      (Option.isSome_of_eq_some (TriplePattern.standsFor_of_unify hy).1)

theorem avoids_of_mem_steps_typePattern {types : List Iri} {a : Allocator}
    (hroot : ¬ a.Pending root) {x : Row}
    (hx : x ∈ Element.steps D (typePattern root types) .empty) : x.Avoids a := by
  intro v hv
  have hout : v ∉ Element.groupVars (typePattern root types) := fun hmem =>
    hroot (mem_typePattern_vars hmem ▸ hv)
  rw [(Element.steps_grows hx).outside v hout, Row.value?_empty]

theorem found_typePattern_append (types : List Iri) (g : Group) (r : Row) :
    Group.found D (typePattern root types ++ g) r =
      (Element.steps D (typePattern root types) r).flatMap (Group.found D g) := by
  have hfilterless : ∀ x, Element.holdAll D (typePattern root types) x = true := fun x =>
    Element.holdAll_eq_true_iff.2 (by simp [typePattern, Element.ofTriple])
  simp only [Group.found, Element.steps_append, List.filter_flatMap]
  refine List.flatMap_congr fun x _ => List.filter_congr fun y _ => ?_
  rw [Element.holdAll_append, hfilterless, Bool.true_and]

private theorem mem_steps_typePattern {types : List Iri} (htypes : types ≠ []) {c : Node}
    (h : ∀ t ∈ types, c.HasType D t) :
    Row.bind .empty root c ∈ Element.steps D (typePattern root types) .empty := by
  have hstep : ∀ t ∈ types, ∀ r : Row, r.Below (Row.bind .empty root c) →
      Row.bind .empty root c ∈
        Element.step D (.ofTriple (.var root) (.iri Iri.rdfType) (.iri t)) r := by
    intro t ht r hr
    obtain ⟨q, hq, rfl, hp, ho⟩ := h t ht
    obtain ⟨x, hx, hbelow⟩ := TriplePattern.exists_unify
      (t := ⟨.var root, .iri Iri.rdfType, .iri t⟩) (q := q) hr
      (by simp [TriplePattern.StandsFor, Term.value?, Term.iri, hp, ho])
    have hroot := (TriplePattern.standsFor_of_unify hx).1
    rw [Row.eq_bind_empty hbelow hroot] at hx
    exact List.mem_filterMap.2 ⟨q, hq, hx⟩
  have hrest : ∀ ts ⊆ types, Row.bind .empty root c ∈
      Element.steps D (typePattern root ts) (Row.bind .empty root c) := by
    intro ts hts
    induction ts with
    | nil => simp [typePattern, Element.steps]
    | cons t ts ih =>
      rw [List.cons_subset] at hts
      exact List.mem_flatMap.2 ⟨_, hstep t hts.1 _ (.refl _), ih hts.2⟩
  cases types with
  | nil => exact absurd rfl htypes
  | cons t ts =>
    exact List.mem_flatMap.2 ⟨_, hstep t List.mem_cons_self _ (Row.empty_below _),
      hrest ts (List.subset_cons_self t ts)⟩

end Types

section Blocks

variable {D : List Quad} {root : Variable} {ms : List (Emit Unit)} {a a' : Allocator}
  {ems : List (Emission Unit)}

theorem Emit.Runs.tidy {α : Type} {ms : List (Emit α)} {ems : List (Emission α)}
    {known : Variable → Prop} {vars : α → List Variable} (hruns : Runs ms a ems a')
    (h : ∀ m ∈ ms, m.Stays known vars) :
    Group.Tidy known a a' (ems.map Emission.elements).flatten := by
  induction hruns with
  | nil a => exact .nil known (.refl a)
  | @cons m ms a a' em ems head tail ih =>
    exact (h m List.mem_cons_self a em head).1.append
      (ih fun m hm => h m (List.mem_cons_of_mem _ hm)) fun v hv => .inl hv

theorem exists_found_congr {g : Group} (htidy : g.Tidy (· = root) a a') {x x' : Row}
    (hx : x.Avoids a) (hx' : x'.Avoids a) (hroot : x'.value? root = x.value? root)
    (P : Option Node → Prop) :
    (∃ y ∈ Group.found D g x, P (y.value? root)) ↔
      ∃ y ∈ Group.found D g x', P (y.value? root) := by
  have hagree : ∀ v ∈ {v | v = root ∨ a.Pending v}, x'.value? v = x.value? v := by
    rintro v (rfl | hpending)
    · exact hroot
    · rw [hx v hpending, hx' v hpending]
  have hfound := Group.found_congr (D := D) (fun v hv => htidy.vars hv) hagree
  refine exists_mem_iff_of_forall₂ hfound fun y y' hsame => ?_
  rw [hsame root (.inl rfl)]

theorem exists_found_iff_of_root {g : Group}
    (htidy : g.Tidy (· = root) a a') {x : Row} {c : Node} (hx : x.Avoids a)
    (hc : x.value? root = some c) :
    (∃ y, y ∈ Group.found D g x) ↔ ∃ y, y ∈ Group.found D g (Row.bind .empty root c) := by
  have hcongr := exists_found_congr (D := D) htidy hx
    (Row.avoids_bind_empty (hx.not_pending hc) c) (by simp [hc]) fun _ => True
  simpa using hcongr

/-- Once the resource has a value, blocks match together exactly if each of them matches. -/
theorem exists_found_blocks_iff (hruns : Runs ms a ems a')
    (hms : ∀ m ∈ ms, m.Stays (· = root) fun _ => []) {x : Row} {c : Node} (hx : x.Avoids a)
    (hc : x.value? root = some c) :
    (∃ row, row ∈ Group.found D (ems.map Emission.elements).flatten x) ↔
      ∀ em ∈ ems, ∃ row, row ∈ Group.found D em.elements (Row.bind .empty root c) := by
  induction hruns generalizing x with
  | nil a => simp [Group.found, Element.steps, Element.holdAll]
  | @cons m ms a a' em ems head tail ih =>
    have hms' : ∀ m ∈ ms, m.Stays (· = root) fun _ => [] :=
      fun m hm => hms m (List.mem_cons_of_mem _ hm)
    have htidy := (hms m List.mem_cons_self a em head).1
    have hroot : ∀ y ∈ Element.steps D em.elements x, y.value? root = some c :=
      fun y hy => (Element.steps_grows hy).below root c hc
    have hfound := htidy.found_append (tail.tidy hms') hc fun y hy v hv =>
      hv ▸ Option.isSome_of_eq_some (hroot y hy)
    have hrest : ∀ y ∈ Group.found D em.elements x,
        (∃ row, row ∈ Group.found D (ems.map Emission.elements).flatten y) ↔
          ∀ em ∈ ems, ∃ row, row ∈ Group.found D em.elements (Row.bind .empty root c) := by
      intro y hy
      have hy' := List.mem_of_mem_filter hy
      exact ih hms' (htidy.avoids (hx.not_pending hc) hx hy') (hroot y hy')
    rw [List.map_cons, List.flatten_cons, hfound, List.forall_mem_cons,
      ← exists_found_iff_of_root htidy hx hc]
    simp only [List.mem_flatMap]
    constructor
    · rintro ⟨row, y, hy, hrow⟩
      exact ⟨⟨y, hy⟩, (hrest y hy).1 ⟨row, hrow⟩⟩
    · rintro ⟨⟨y, hy⟩, hall⟩
      obtain ⟨row, hrow⟩ := (hrest y hy).2 hall
      exact ⟨row, y, hy, hrow⟩

/-- A pattern that asks for types and for blocks has a row with a resource exactly if the resource
has the types and each block matches from it. -/
theorem exists_found_pattern_iff {types : List Iri} (htypes : types ≠ [])
    (hroot : ¬ a.Pending root) (hruns : Runs ms a ems a')
    (hms : ∀ m ∈ ms, m.Stays (· = root) fun _ => []) (c : Node) :
    (∃ row ∈ Group.found D (typePattern root types ++ (ems.map Emission.elements).flatten) .empty,
      row.value? root = some c) ↔
      (∀ t ∈ types, c.HasType D t) ∧
        ∀ em ∈ ems, ∃ row, row ∈ Group.found D em.elements (Row.bind .empty root c) := by
  have hblocks := exists_found_blocks_iff (D := D) hruns hms
    (Row.avoids_bind_empty hroot c) (by simp : (Row.bind .empty root c).value? root = some c)
  simp only [found_typePattern_append, List.mem_flatMap]
  constructor
  · rintro ⟨row, ⟨x, hx, hrow⟩, hc⟩
    have hxc : x.value? root = some c := by
      obtain ⟨n, hn⟩ := Option.isSome_iff_exists.1 (isSome_of_mem_steps_typePattern htypes hx)
      rw [hn, ← (Group.found_grows hrow).below root n hn, hc]
    have hbelow : x.Below (Row.bind .empty root c) := by
      intro v n hn
      by_cases hv : v = root
      · rw [hv, hxc] at hn
        simp [hv, ← hn]
      · have hnone := (Element.steps_grows hx).outside v fun hmem => hv (mem_typePattern_vars hmem)
        rw [hnone, Row.value?_empty] at hn
        cases hn
    rw [Row.eq_bind_empty hbelow hxc] at hrow
    exact ⟨hasType_of_mem_steps hx hxc, hblocks.1 ⟨row, hrow⟩⟩
  · rintro ⟨htyped, hall⟩
    obtain ⟨row, hrow⟩ := hblocks.2 hall
    exact ⟨row, ⟨_, mem_steps_typePattern htypes htyped, hrow⟩,
      (Group.found_grows hrow).below root c (by simp)⟩

end Blocks

theorem Criterion.emit_ok {r : Registry} {limits : RecursionLimits} {k : Criterion}
    {root : Variable} {a : Allocator} {em : Emission Unit} (hem : k.emit r limits root a = .ok em) :
    ∃ first, Compile.selector r limits k.selector root a = .ok first ∧
      em.allocator = first.allocator ∧ em.elements = first.elements ++
        (k.constraint.map fun c => .filter (c.condition first.value)).toList := by
  obtain ⟨first, second, hfirst, hsecond, rfl⟩ := bind_ok hem
  cases hk : k.constraint with
  | none =>
    rw [hk] at hsecond
    cases hsecond
    exact ⟨first, hfirst, rfl, rfl⟩
  | some constraint =>
    rw [hk] at hsecond
    cases hsecond
    exact ⟨first, hfirst, rfl, rfl⟩

theorem Constraint.vars_condition (c : Constraint) (value : Variable) :
    (c.condition value).vars = [value] := by
  unfold Constraint.condition
  split <;> simp [Expr.vars, Expr.listVars, Expr.var, Expr.literal, Term.vars, Term.literal]

theorem stays_criterion (limits : RecursionLimits) (k : Criterion) (root : Variable) :
    (k.emit .builtin limits root).Stays (· = root) fun _ => [] := by
  refine (stays_selector limits k.selector root).bind fun value => ?_
  cases k.constraint with
  | none => exact stays_done () (by simp)
  | some c =>
    refine stays_write (fun v hv => .inr ?_) nofun nofun
    rwa [Element.vars, Constraint.vars_condition] at hv

theorem stays_criteria (limits : RecursionLimits) (criteria : List Criterion) (root : Variable) :
    ∀ m ∈ criteria.map fun k => k.emit .builtin limits root,
      m.Stays (· = root) fun _ => [] := by
  simp only [List.forall_mem_map]
  exact fun k _ => stays_criterion limits k root

end GraphPath
