import GraphPath.Proofs.Extensions

/-!
# Pages of results

Limit and offset count the answers of a store. A session passes over the answers that are no
resources: those in which the root has no value, or a literal. So a page of the answers is a page of
the results exactly if no resource comes after an answer that is passed over. It is so in each
session that asks for a type.
-/

namespace GraphPath

open Emit

section Lists

variable {α β : Type} {f : α → Option β} {l : List α}

/-- Elements that give a value come before those that give none. -/
def GivingFirst (f : α → Option β) (l : List α) : Prop :=
  l.Pairwise fun x y => (f y).isSome → (f x).isSome

private theorem GivingFirst.filterMap_eq_nil {x : α} (h : GivingFirst f (x :: l))
    (hx : f x = none) :
    l.filterMap f = [] := by
  rw [List.filterMap_eq_nil_iff]
  intro y hy
  have hxy := (List.pairwise_cons.1 h).1 y hy
  rw [hx] at hxy
  simpa using hxy

private theorem GivingFirst.filterMap_page (h : GivingFirst f l) (n m : Nat) :
    ((l.drop m).take n).filterMap f = ((l.filterMap f).drop m).take n := by
  induction l generalizing n m with
  | nil => simp
  | cons x l ih =>
    have htail : GivingFirst f l := (List.pairwise_cons.1 h).2
    cases hx : f x with
    | none =>
      -- nothing behind gives a value, so both pages are empty
      have hnone := h.filterMap_eq_nil hx
      have hpage : ∀ y ∈ ((x :: l).drop m).take n, f y = none := by
        intro y hy
        rcases List.mem_cons.1 (List.mem_of_mem_drop (List.mem_of_mem_take hy)) with rfl | hy
        · exact hx
        · exact List.filterMap_eq_nil_iff.1 hnone y hy
      rw [List.filterMap_eq_nil_iff.2 hpage, List.filterMap_cons_none hx, hnone]
      simp
    | some z =>
      rw [List.filterMap_cons_some hx]
      cases m with
      | succ m => exact ih htail n m
      | zero =>
        cases n with
        | zero => simp
        | succ n =>
          have hrest := ih htail n 0
          simp only [List.drop_zero] at hrest
          simp [List.filterMap_cons_some hx, hrest]

private theorem filterMap_page_iff (f : α → Option β) (l : List α) :
    (∀ n m, ((l.drop m).take n).filterMap f = ((l.filterMap f).drop m).take n) ↔
      GivingFirst f l := by
  refine ⟨fun h => ?_, GivingFirst.filterMap_page⟩
  induction l with
  | nil => exact .nil
  | cons x l ih =>
    cases hx : f x with
    | none =>
      -- the page of one element at the start is empty, so there is nothing to be given
      have hfirst : (l.filterMap f).take 1 = [] := by
        have hpage := h 1 0
        simp only [List.drop_zero, List.take_succ_cons, List.take_zero,
          List.filterMap_cons_none hx, List.filterMap_nil] at hpage
        exact hpage.symm
      have hnone : ∀ y ∈ l, f y = none := by
        rw [← List.filterMap_eq_nil_iff]
        simpa using hfirst
      refine List.pairwise_cons.2 ⟨fun y hy => by simp [hnone y hy], ?_⟩
      exact List.pairwise_of_forall_mem_list fun y _ z hz => by simp [hnone z hz]
    | some z =>
      refine List.pairwise_cons.2 ⟨fun y _ _ => by simp [hx], ih fun n m => ?_⟩
      have hpage := h n (m + 1)
      rwa [List.filterMap_cons_some hx] at hpage

end Lists

/-- The resource that a row has for a variable. -/
def Row.resource? (v : Variable) (row : Row) : Option Iri := (row.value? v).bind Node.iri?

/-- The pages of a query are pages of all its answers. -/
theorem Query.answers_page (q : Query) (rows : List Row) (n m : Nat) :
    { q with limit := some n, offset := some m }.answers rows =
      (({ q with limit := none, offset := none }.answers rows).drop m).take n := by
  simp [Query.answers]

namespace Session

variable {s : Session} {store : Store}

private theorem execute_of_select {endpoint : Endpoint} {answers : List Row}
    (h : s.select endpoint = .ok answers) :
    s.execute endpoint = .ok (answers.filterMap (Row.resource? s.root)) := by
  rw [execute, h]
  rfl

private theorem select_page {answers : List Row}
    (h : { s with limit := none, offset := none }.select store.select = .ok answers) (n m : Nat) :
    { s with limit := some n, offset := some m }.select store.select =
      .ok ((answers.drop m).take n) := by
  obtain ⟨em, rows, hem, hrows, rfl⟩ := select_ok_iff.1 h
  exact select_ok_iff.2 ⟨em, rows, hem, hrows, (Query.answers_page (s.query em) rows n m).symm⟩

private theorem isSome_resource?_of_types (htypes : s.types ≠ []) (hlimit : s.limit = none)
    (hoffset : s.offset = none) {answers : List Row} (h : s.select store.select = .ok answers)
    {answer : Row} (hanswer : answer ∈ answers) : (answer.resource? s.root).isSome := by
  obtain ⟨em, rows, hem, hrows, rfl⟩ := select_ok_iff.1 h
  obtain ⟨row, hrow, rfl⟩ := (Query.mem_answers_iff (q := s.query em) hlimit hoffset).1 hanswer
  obtain ⟨p, -⟩ : ∃ p : s.Assembly (s.query em), p.last = em.allocator := exists_assembly hem rfl
  have hfound : row ∈ Element.steps (store.quads.filter (Quad.isVisible s.graph)) em.elements
      .empty := by
    rw [Group.rows_eq_found hrows] at hrow
    exact List.mem_of_mem_filter hrow
  have hpattern : em.elements = typePattern s.root s.types ++ _ := p.pattern_eq
  rw [hpattern, Element.steps_append, List.mem_flatMap] at hfound
  obtain ⟨typed, htyped, hrow⟩ := hfound
  obtain ⟨c, hc⟩ := Option.isSome_iff_exists.1 (isSome_of_mem_steps_typePattern htypes htyped)
  obtain ⟨t, ht⟩ := List.exists_mem_of_ne_nil _ htypes
  obtain ⟨q, -, rfl, -⟩ := hasType_of_mem_steps htyped hc t ht
  have hroot : row.value? s.root = some (.iri q.subject) :=
    (Element.steps_grows hrow).below s.root _ hc
  have hanswered : (row.restrict s.root).resource? s.root = some q.subject := by
    rw [Row.resource?, Row.value?_restrict, hroot]
    rfl
  exact Option.isSome_of_eq_some hanswered

/-- A session with a limit and an offset gives the resources on a page of the answers. That is the
page of its results, for every limit and offset, exactly if no resource comes after an answer that
is passed over. Where the session asks for a type, none is passed over. -/
theorem execute_page {results : List Iri}
    (h : { s with limit := none, offset := none }.execute store.select = .ok results) :
    ∃ answers, { s with limit := none, offset := none }.select store.select = .ok answers ∧
      results = answers.filterMap (Row.resource? s.root) ∧
      (∀ n m, { s with limit := some n, offset := some m }.execute store.select =
        .ok (((answers.drop m).take n).filterMap (Row.resource? s.root))) ∧
      ((∀ n m, { s with limit := some n, offset := some m }.execute store.select =
        .ok ((results.drop m).take n)) ↔ GivingFirst (Row.resource? s.root) answers) ∧
      (s.types ≠ [] → ∀ n m, { s with limit := some n, offset := some m }.execute store.select =
        .ok ((results.drop m).take n)) := by
  obtain ⟨answers, hselect, hresults⟩ := exists_of_bind_ok h
  obtain rfl : answers.filterMap (Row.resource? s.root) = results := Except.ok.inj hresults
  have hpage : ∀ n m, { s with limit := some n, offset := some m }.execute store.select =
      .ok (((answers.drop m).take n).filterMap (Row.resource? s.root)) := fun n m =>
    execute_of_select (select_page hselect n m)
  have hiff : (∀ n m, { s with limit := some n, offset := some m }.execute store.select =
      .ok (((answers.filterMap (Row.resource? s.root)).drop m).take n)) ↔
        GivingFirst (Row.resource? s.root) answers := by
    rw [← filterMap_page_iff]
    refine forall₂_congr fun n m => ?_
    rw [hpage, Except.ok.injEq]
  refine ⟨answers, hselect, rfl, hpage, hiff, fun htypes => hiff.2 ?_⟩
  refine List.pairwise_of_forall_mem_list fun row hrow _ _ _ => ?_
  exact isSome_resource?_of_types (s := { s with limit := none, offset := none }) htypes rfl rfl
    hselect hrow

/-- Results of a type, two of them on the second page of two. -/
theorem execute_page_of_type :
    let t : Iri := ⟨"http://e/T"⟩
    let store : Store := { quads := ["a", "b", "c", "d", "e"].map fun name =>
      ⟨⟨"http://e/" ++ name⟩, Iri.rdfType, .iri t, none⟩ }
    let s : Session := { Session.start .builtin {} none with types := [t] }
    ∃ results, { s with limit := none, offset := none }.execute store.select = .ok results ∧
      results.length = 5 ∧
      { s with limit := some 2, offset := some 2 }.execute store.select =
        .ok ((results.drop 2).take 2) := by
  intro t store s
  have hany : ({ s with limit := none, offset := none }.execute store.select).toOption.any
      (fun results : List Iri => results.length == 5) = true := by decide +kernel
  obtain ⟨results, hresults, hlength⟩ := exists_ok_of_any hany
  obtain ⟨-, -, -, -, -, hpage⟩ := execute_page hresults
  exact ⟨results, hresults, by simpa using hlength, hpage (by decide) 2 2⟩

/-- A literal comes before the only resource: the first page of one is empty, and the resource is on
the second. -/
theorem page_without_resource :
    let p : Iri := ⟨"http://e/p"⟩
    let store : Store := { quads := [⟨⟨"http://e/a"⟩, p, .literal (.plain "lit"), none⟩,
      ⟨⟨"http://e/a"⟩, p, .iri ⟨"http://e/b"⟩, none⟩] }
    let s : Session := { Session.start .builtin {} none with criteria := [⟨.reverse p, none⟩] }
    { s with limit := none, offset := none }.execute store.select = .ok [⟨"http://e/b"⟩] ∧
      { s with limit := some 1, offset := some 0 }.execute store.select = .ok [] ∧
      { s with limit := some 1, offset := some 1 }.execute store.select =
        .ok [⟨"http://e/b"⟩] := by
  decide +kernel

end Session

end GraphPath
