import GraphPath.CommandLine.Run
import GraphPath.Proofs.Accepted
import GraphPath.Proofs.Resolution

/-!
# What comes in as text

Paths, statements and the values of options come in as text. Whatever the text is, and whatever
namespaces the vocabulary has, what is read from it is in its form down to every part: each IRI was
accepted as one after its short name was expanded, each literal is canonical, and paths are nested
the way the grammar nests them.
-/

namespace GraphPath

/-- What is asked of a node of a path expression itself. -/
def Part.Proper : Part → Prop
  | .selector (.property p) => p.WellFormed
  | .selector (.reverse p) => p.WellFormed
  | .selector (.constant n) => n.WellFormed Literal.Canonical
  | .selector (.recursive _ min max) => ∀ m ∈ max, min ≤ m
  | .selector (.function name _) => name ≠ ""
  | .selector (.path _ right) => right.isStep = true
  | .selector (.testing delegate _) => delegate.isStep = true
  | .selector _ => True
  | .test (.language tag) => tag ≠ ""
  | .test (.datatype type) => type.WellFormed
  | .test _ => True

/-- The node is well formed, or a constant where a test takes one. -/
def Part.Admitted : Part → Prop
  | .selector s => s.WellFormed Literal.Canonical ∨
      ∃ n, s = .constant n ∧ n.WellFormed Literal.Canonical
  | .test t => t.WellFormed Literal.Canonical

namespace Part.Admitted

theorem proper {x : Part} (hx : x.Admitted) : x.Proper := by
  cases x with
  | selector s =>
    rcases hx with hs | ⟨n, rfl, hn⟩
    · cases s with
      | property p => exact hs
      | reverse p => exact hs
      | path left right => exact hs.2.2
      | recursive inner min max => exact fun m hm => (hs.2.2 m hm).1
      | testing delegate t => exact hs.2.2
      | function name args => exact hs.1.1
      | constant n =>
        obtain ⟨l, rfl, hl⟩ := hs
        exact hl
      | _ => trivial
    · exact hn
  | test t =>
    cases t with
    | language tag => exact hx.1
    | datatype type => exact hx
    | _ => trivial

private theorem children {x y : Part} (hx : x.Admitted) (hy : y ∈ x.children) : y.Admitted := by
  cases x with
  | selector s =>
    rcases hx with hs | ⟨n, rfl, -⟩
    · cases s with
      | path left right =>
        rcases List.mem_pair.1 hy with rfl | rfl
        · exact .inl hs.1
        · exact .inl hs.2.1
      | union left right =>
        rcases List.mem_pair.1 hy with rfl | rfl
        · exact .inl hs.1
        · exact .inl hs.2
      | intersection left right =>
        rcases List.mem_pair.1 hy with rfl | rfl
        · exact .inl hs.1
        · exact .inl hs.2
      | recursive inner min max =>
        obtain rfl := List.mem_singleton.1 hy
        exact .inl hs.1
      | grouping inner =>
        obtain rfl := List.mem_singleton.1 hy
        exact .inl hs
      | testing delegate t =>
        rcases List.mem_pair.1 hy with rfl | rfl
        · exact .inl hs.1
        · exact hs.2.1
      | function name args =>
        obtain ⟨s, hmem, rfl⟩ := List.mem_map.1 hy
        exact .inl (Selector.allWellFormed_iff.1 hs.2 s hmem)
      | _ => cases hy
    · cases hy
  | test t =>
    cases t with
    | isA type =>
      obtain rfl := List.mem_singleton.1 hy
      exact .inr hx
    | and left right =>
      rcases List.mem_pair.1 hy with rfl | rfl
      · exact hx.1
      · exact hx.2
    | or left right =>
      rcases List.mem_pair.1 hy with rfl | rfl
      · exact hx.1
      · exact hx.2
    | not inner =>
      obtain rfl := List.mem_singleton.1 hy
      exact hx
    | comparison op left right =>
      rcases List.mem_pair.1 hy with rfl | rfl
      · exact .inl hx.1
      · exact .inl hx.2.1
    | pathEquality left right =>
      rcases List.mem_pair.1 hy with rfl | rfl
      · exact .inl hx.1
      · exact .inr hx.2
    | pathExists path =>
      obtain rfl := List.mem_singleton.1 hy
      exact .inl hx
    | language tag => cases hy
    | datatype type => cases hy

theorem contained {x y : Part} (hx : x.Admitted) (h : x.Contains y) : y.Admitted := by
  induction h with
  | self x => exact hx
  | child mem below ih => exact ih (hx.children mem)

end Part.Admitted

/-! ## Statements -/

/-- The IRIs and the literal of a statement are in their forms. -/
structure Quad.WellFormed (q : Quad) : Prop where
  subject : q.subject.WellFormed
  predicate : q.predicate.WellFormed
  object : q.object.WellFormed Literal.Canonical
  graph : ∀ g ∈ q.graph, g.WellFormed

namespace Parser

private theorem yields_statement (v : Vocabulary) : (statement v).Yields Quad.WellFormed :=
  (yields_iri v).padded.bind fun _ hsubject => (yields_iri v).padded.bind fun _ hpredicate =>
    (yields_node v).padded.bind fun _ hobject => (yields_iri v).padded.optional.bind fun _ hgraph =>
      (yields_true _).bind fun _ _ => yields_pure ⟨hsubject, hpredicate, hobject, hgraph⟩

private theorem yields_statementLine (v : Vocabulary) :
    (statementLine v).Yields fun line => ∀ q, line = .inr q → q.WellFormed := by
  refine .padded (.either ((yields_true _).map ?_) ((yields_statement v).map ?_))
  · rintro declared - q ⟨⟩
  · rintro read hread q ⟨⟩
    exact hread

end Parser

private theorem Statements.wellFormed_of_parseFrom {n : Nat} {v : Vocabulary}
    {lines : List (List Char)} {quads : List Quad} (h : parseFrom n v lines = .ok quads) :
    ∀ q ∈ quads, q.WellFormed := by
  induction lines generalizing n v quads with
  | nil =>
    cases h
    simp
  | cons line rest ih =>
    rw [parseFrom] at h
    split at h
    · exact ih h
    · split at h
      · cases h
      · exact ih h
      · next q hline =>
        cases hrest : parseFrom (n + 1) v rest with
        | error e =>
          rw [hrest] at h
          cases h
        | ok others =>
          rw [hrest] at h
          cases h
          exact List.forall_mem_cons.2
            ⟨Parser.yields_statementLine v (Parser.run_eq_ok_iff.1 hline) q rfl, ih hrest⟩

/-! ## Options -/

namespace CommandLine

private theorem wellFormed_readNode (v : Vocabulary) (raw : String) :
    (readNode v raw).WellFormed Literal.Canonical := by
  unfold readNode
  split
  · next n hn => exact Parser.yields_node v (Parser.run_eq_ok_iff.1 hn)
  · exact Parser.canonical_plain raw

private theorem wellFormed_of_readIri {v : Vocabulary} {o : Opt} {raw : String} {i : Iri}
    (h : readIri v o raw = .ok i) : i.WellFormed := by
  have hnode := wellFormed_readNode v raw
  unfold readIri at h
  split at h
  · next j hj =>
    cases h
    rwa [hj] at hnode
  · split at h
    · cases h
    · exact Iri.wellFormed_of_parse (eq_ok_of_mapError_ok h)

end CommandLine

/-- All that is read from text is in its form: every part of a path, every statement, and the values
of options. -/
theorem text_well_formed (v : Vocabulary) :
    (∀ input s, Selector.parse v input = .ok s →
      ∀ x, (Part.selector s).Contains x → x.Proper) ∧
    (∀ text quads, Statements.parse v text = .ok quads → ∀ q ∈ quads, q.WellFormed) ∧
    (∀ raw, (CommandLine.readNode v raw).WellFormed Literal.Canonical) ∧
    ∀ o raw i, CommandLine.readIri v o raw = .ok i → i.WellFormed := by
  refine ⟨fun input s hs x hx => ?_, fun text quads hquads => ?_,
    CommandLine.wellFormed_readNode v, fun o raw i hi => CommandLine.wellFormed_of_readIri hi⟩
  · have hroot : (Part.selector s).Admitted := .inl (Selector.wellFormed_of_parse hs)
    exact (hroot.contained hx).proper
  · exact Statements.wellFormed_of_parseFrom hquads

/-- A path, a statement under a short name of its own, and an IRI without brackets, with a namespace
that is none. -/
theorem text_well_formed_foreign_namespace :
    let v := Vocabulary.common.insert "no" "> a namespace"
    let path := "^oa:hasTarget[is-a <http://e/T> or @EN]/(oa:x|.)\x7b1,2\x7d"
    let lines := "@prefix e: <http://e/> .\n e:a e:p 'b'@EN-GB e:g ."
    ∃ s quads i, Selector.parse v path = .ok s ∧
      (∀ x, (Part.selector s).Contains x → x.Proper) ∧
      Statements.parse v lines = .ok quads ∧ quads ≠ [] ∧ (∀ q ∈ quads, q.WellFormed) ∧
      CommandLine.readIri v .type " no:scheme " = .ok i ∧ i.WellFormed := by
  intro v path lines
  have hpath : (Selector.parse v path).isOk = true := by decide +kernel
  have hlines : (Statements.parse v lines).toOption.any (fun quads => quads ≠ []) = true := by
    decide +kernel
  have hoption : (CommandLine.readIri v .type " no:scheme ").isOk = true := by decide +kernel
  obtain ⟨s, hs⟩ := exists_ok_of_isOk hpath
  obtain ⟨quads, hquads, hne⟩ := exists_ok_of_any hlines
  obtain ⟨i, hi⟩ := exists_ok_of_isOk hoption
  obtain ⟨hselectors, hstatements, -, hiris⟩ := text_well_formed v
  exact ⟨s, quads, i, hs, hselectors _ s hs, hquads, of_decide_eq_true hne,
    hstatements _ quads hquads, hi, hiris _ _ i hi⟩

end GraphPath
