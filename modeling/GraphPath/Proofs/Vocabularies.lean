import GraphPath.Proofs.Abbreviated
import GraphPath.Proofs.Rows

/-!
# The vocabularies of a run

A run reads statements with the common short names and those declared on the command line, and the
request with these and the short names of the settings between them. So a compact name stands for
the same in both exactly if its short name is declared, or the settings do not change it.
-/

namespace GraphPath

/-! ## Layers of a table -/

namespace Table

variable {β : Type}

private theorem get?_insertAll_of_not_mem {pairs : List (String × β)} {name : String}
    (h : name ∉ pairs.map Prod.fst) (t : Table β) :
    (t.insertAll pairs).get? name = t.get? name := by
  induction pairs generalizing t with
  | nil => rfl
  | cons pair rest ih =>
    rw [List.map_cons, List.mem_cons, not_or] at h
    have hrest := ih h.2 (t.insert pair.1 pair.2)
    rw [get?_insert, if_neg h.1] at hrest
    exact hrest

private theorem exists_get?_insertAll {pairs : List (String × β)} {name : String}
    (h : name ∈ pairs.map Prod.fst) :
    ∃ value, ∀ t : Table β, (t.insertAll pairs).get? name = some value := by
  induction pairs with
  | nil => cases h
  | cons pair rest ih =>
    by_cases hrest : name ∈ rest.map Prod.fst
    · obtain ⟨value, hvalue⟩ := ih hrest
      exact ⟨value, fun t => hvalue (t.insert pair.1 pair.2)⟩
    · have hname : name = pair.1 := by
        rw [List.map_cons, List.mem_cons] at h
        exact h.resolve_right hrest
      refine ⟨pair.2, fun t => ?_⟩
      have hbelow := get?_insertAll_of_not_mem hrest (t.insert pair.1 pair.2)
      rw [get?_insert, if_pos hname] at hbelow
      exact hbelow

end Table

private theorem Vocabulary.expand_eq_iff {v w : Vocabulary} {short name : String} :
    v.expand short name = w.expand short name ↔ v.get? short = w.get? short := by
  constructor
  · intro h
    apply Option.map_injective ?_ h
    intro ns ns' hns
    have htext : ns ++ name = ns' ++ name := congrArg Iri.text hns
    rw [← String.toList_inj, String.toList_append, String.toList_append] at htext
    exact String.toList_inj.1 (List.append_cancel_right htext)
  · intro h
    rw [expand, expand, h]

private theorem CompactName.iri?_eq_of_expand {c : CompactName} {v w : Vocabulary}
    (h : v.expand c.short c.name = w.expand c.short c.name) : c.iri? v = c.iri? w := by
  rw [iri?, iri?, Parser.expandName, Parser.expandName, h]

namespace CommandLine

namespace Request

variable (r : Request) (settings : Settings)

private theorem get?_vocabulary_of_not_mem {short : String}
    (h : short ∉ r.declarations.map Prod.fst) :
    (r.vocabulary settings).get? short =
      (settings.vocabulary.get? short).or (Vocabulary.common.get? short) := by
  rw [vocabulary, Table.get?_insertAll_of_not_mem h]
  exact Table.get?_insertAll Vocabulary.common settings.vocabulary short

/-- The two vocabularies differ where the settings change a common short name or add one, and no
declaration takes its place. -/
theorem get?_dataVocabulary_eq_iff (short : String) :
    r.dataVocabulary.get? short = (r.vocabulary settings).get? short ↔
      short ∈ r.declarations.map Prod.fst ∨ settings.vocabulary.get? short = none ∨
        settings.vocabulary.get? short = Vocabulary.common.get? short := by
  by_cases h : short ∈ r.declarations.map Prod.fst
  · obtain ⟨ns, hns⟩ := Table.exists_get?_insertAll h
    rw [dataVocabulary, vocabulary, hns, hns]
    exact iff_of_true rfl (Or.inl h)
  · rw [dataVocabulary, Table.get?_insertAll_of_not_mem h, get?_vocabulary_of_not_mem r settings h]
    cases hsettings : settings.vocabulary.get? short with
    | none => simp
    | some ns => simp [h, eq_comm]

private theorem insertAll_vocabulary (graph : Option Iri) :
    (Session.start .builtin settings graph).vocabulary.insertAll (r.vocabulary settings).entries =
      r.vocabulary settings := by
  apply Table.ext_get?
  intro short
  rw [Table.get?_insertAll]
  by_cases h : short ∈ r.declarations.map Prod.fst
  · obtain ⟨ns, hns⟩ := Table.exists_get?_insertAll h
    rw [vocabulary, hns, Option.some_or]
  · rw [vocabulary, Table.get?_insertAll_of_not_mem h]
    exact Option.or_self

/-- The request with a compact name in every place for one. -/
def naming (c : CompactName) (op : MatchOp) (direction : Direction) : Request :=
  { r with
    path := c.text
    value := some (c.text, op)
    graph := some c.text
    type := some c.text
    orderBy := some (c.text, direction) }

/-- The session that has a resource in each of these places. -/
def asking (i : Iri) (op : MatchOp) (direction : Direction) : Session where
  registry := .builtin
  settings := settings
  vocabulary := r.vocabulary settings
  graph := some i
  types := [i]
  criteria := [⟨.property i, some ⟨op, .iri i⟩⟩]
  orderBy := [(.property i, direction)]
  limit := r.limit
  offset := r.offset

private theorem session_naming (c : CompactName) (op : MatchOp) (direction : Direction) :
    ((r.naming c op direction).session settings).toOption =
      (c.read? (r.vocabulary settings)).map fun i => r.asking settings i op direction := by
  have hiri (o : Opt) : (some c.text).mapM (readIri (r.vocabulary settings) o) =
      .ok (some ((c.read? (r.vocabulary settings)).getD ⟨c.text⟩)) := by
    rw [Option.mapM_some, readIri_compact]
    rfl
  have hpath := Selector.parse_compact (r.vocabulary settings) c
  have hvocabulary : (r.naming c op direction).vocabulary settings = r.vocabulary settings := rfl
  unfold session
  rw [hvocabulary]
  simp only [naming, hiri, Option.map_some, readNode_compact]
  cases hread : c.read? (r.vocabulary settings) with
  | none =>
    rw [hread] at hpath
    cases hparse : Selector.parse (r.vocabulary settings) c.text with
    | error e =>
      simp only [Session.addPath, hparse]
      rfl
    | ok s =>
      rw [hparse] at hpath
      cases hpath
  | some i =>
    have hparse : Selector.parse (r.vocabulary settings) c.text = .ok (.property i) :=
      toOption_eq_some_iff.1 (by rw [hpath, hread, Option.map_some])
    have hcriterion (s : Session) (hs : s.vocabulary = r.vocabulary settings)
        (constraint : Option Constraint) :
        s.addPath c.text constraint = .ok (s.addCriterion ⟨.property i, constraint⟩) := by
      rw [Session.addPath, hs, hparse]
      rfl
    have horder (s : Session) (hs : s.vocabulary = r.vocabulary settings) :
        s.addOrder c.text direction =
          .ok { s with orderBy := s.orderBy ++ [(.property i, direction)] } := by
      rw [Session.addOrder, hs, hparse]
      rfl
    simp only [bind, Except.bind]
    rw [hcriterion _ rfl]
    simp only [Except.mapError]
    rw [horder _ rfl]
    rfl

end Request

/-- The vocabularies read a text alike, as statements, as a path, as a node and as an IRI. -/
structure ReadAlike (v w : Vocabulary) (text : String) : Prop where
  statements : Statements.parse v text = Statements.parse w text
  path : Selector.parse v text = Selector.parse w text
  node : readNode v text = readNode w text
  iri : ∀ o, readIri v o text = readIri w o text

private theorem readAlike_of_agreeOn {v w : Vocabulary} {text : String}
    (h : v.AgreeOn w text.toList) :
    ReadAlike v w text := by
  have hnode : readNode v text = readNode w text := by
    have hrun := (Parser.alike_node (h.mono (Text.isInfix_trim text.toList))).run_eq
    unfold readNode
    rw [hrun]
  refine ⟨Statements.parse_eq_of_agreeOn h, Selector.parse_eq_of_agreeOn h, hnode, fun o => ?_⟩
  unfold readIri
  rw [hnode]

private theorem loadStore_written (v : Vocabulary) {quads : List WrittenQuad}
    (h : ∀ q ∈ quads, q.Proper) {contentOf : String → Option String} {path : String}
    (hcontent : contentOf path = some (WrittenQuad.render quads)) :
    (Invocation.loadStore contentOf path v).toOption =
      (quads.mapM fun q : WrittenQuad => q.quad? v).map fun read => (Store.extend {} read).1 := by
  rw [← Statements.parse_written v h]
  unfold Invocation.loadStore
  rw [hcontent]
  simp only [Store.load_eq]
  cases Statements.parse v (WrittenQuad.render quads) <;> rfl

/-- A compact name stands for the same in the data and in the request, or its short name is unknown
in both, exactly if the short name is declared or the settings do not change it. In the data every
name is expanded with the one vocabulary, and in the request with the other one, unless it opens
like a number. The latter is the same for a request with a graph, and texts with no other short
names than those on which the two agree are read alike with both. -/
theorem Request.vocabularies_agree (settings : Settings) (r : Request) (c : CompactName) :
    (r.dataVocabulary.expand c.short c.name = (r.vocabulary settings).expand c.short c.name ↔
      c.short ∈ r.declarations.map Prod.fst ∨ settings.vocabulary.get? c.short = none ∨
        settings.vocabulary.get? c.short = Vocabulary.common.get? c.short) ∧
    (r.dataVocabulary.expand c.short c.name = (r.vocabulary settings).expand c.short c.name →
      c.iri? r.dataVocabulary = c.iri? (r.vocabulary settings)) ∧
    (∀ contentOf path (quads : List WrittenQuad), (∀ q ∈ quads, q.Proper) →
      contentOf path = some (WrittenQuad.render quads) →
      (Invocation.loadStore contentOf path r.dataVocabulary).toOption =
        (quads.mapM fun q : WrittenQuad => q.quad? r.dataVocabulary).map fun read =>
          (Store.extend {} read).1) ∧
    (∀ op direction, ((r.naming c op direction).session settings).toOption =
      (c.read? (r.vocabulary settings)).map fun i => r.asking settings i op direction) ∧
    readNode (r.vocabulary settings) c.text =
      ((c.read? (r.vocabulary settings)).map Node.iri).getD (.literal (.plain c.text)) ∧
    (∀ o, readIri (r.vocabulary settings) o c.text =
      .ok ((c.read? (r.vocabulary settings)).getD ⟨c.text⟩)) ∧
    (∀ graph, (Session.start .builtin settings graph).vocabulary.insertAll
      (r.vocabulary settings).entries = r.vocabulary settings) ∧
    ∀ text : String, r.dataVocabulary.AgreeOn (r.vocabulary settings) text.toList →
      ReadAlike r.dataVocabulary (r.vocabulary settings) text := by
  refine ⟨?_, CompactName.iri?_eq_of_expand, ?_, r.session_naming settings c,
    readNode_compact _ c, fun o => readIri_compact _ o c, r.insertAll_vocabulary settings,
    fun _ => readAlike_of_agreeOn⟩
  · rw [Vocabulary.expand_eq_iff]
    exact r.get?_dataVocabulary_eq_iff settings c.short
  · intro contentOf path quads hquads hcontent
    exact loadStore_written _ hquads hcontent

/-- A declared name takes the place of the one in the settings for the data and for the request, in
every place. -/
theorem Request.vocabularies_agree_declared :
    let settings : Settings := { vocabulary := Table.empty.insert "foaf" "http://new/" }
    let r : Request := { path := ".", declarations := [("foaf", "http://e/")] }
    let c : CompactName := ⟨"foaf", "p", by decide +kernel, by decide +kernel, by decide⟩
    let i : Iri := ⟨"http://e/p"⟩
    let q : WrittenQuad := ⟨.compact c, .compact c, .typed "x" c, some (.compact c)⟩
    settings.validate = .ok () ∧
    WrittenQuad.render [q] = "foaf:p foaf:p \"x\"^^foaf:p foaf:p ." ∧
    r.dataVocabulary.expand c.short c.name = (r.vocabulary settings).expand c.short c.name ∧
    (Invocation.loadStore (fun _ => some (WrittenQuad.render [q])) "d.nt"
      r.dataVocabulary).toOption = some { quads := [⟨i, i, .literal (.typed "x" i), some i⟩] } ∧
    ((r.naming c (.comparison .eq) .ascending).session settings).toOption =
      some (r.asking settings i (.comparison .eq) .ascending) := by
  intro settings r c i q
  obtain ⟨hexpand, -, hdata, hrequest, -⟩ := Request.vocabularies_agree settings r c
  have hproper : ∀ q' ∈ [q], q'.Proper := by
    intro q' hq'
    obtain rfl := List.mem_singleton.1 hq'
    have hvalue : '"' ∉ "x".toList ∧ '\n' ∉ "x".toList := by decide
    refine ⟨trivial, trivial, hvalue, fun g hg => ?_⟩
    cases hg
    trivial
  have hread : c.read? (r.vocabulary settings) = some i := by decide +kernel
  have hquads : ([q].mapM fun q : WrittenQuad => q.quad? r.dataVocabulary) =
      some [⟨i, i, .literal (.typed "x" i), some i⟩] := by decide +kernel
  refine ⟨by decide +kernel, by decide +kernel, hexpand.2 (Or.inl (by decide)), ?_, ?_⟩
  · rw [hdata (fun _ => some (WrittenQuad.render [q])) "d.nt" [q] hproper rfl, hquads]
    rfl
  · rw [hrequest, hread]
    rfl

/-- The short names of the settings are not known to the data: a resource that has the property is
not found by its name, but is if the data are read like the request. And a name that opens like a
number is expanded in the data, but not in the request. -/
theorem Request.settings_unknown_to_data :
    let settings : Settings := { vocabulary := Table.empty.insert "foaf" "http://new/" }
    let r : Request := { path := "foaf:p" }
    let found (v : Vocabulary) : Option (List Iri) := do
      let loaded ← (Store.load {} v "<http://e/a> foaf:p <http://e/b> .").toOption
      let session ← (r.session settings).toOption
      (session.execute loaded.1.select).toOption
    let numbered : Request := { path := "1a:p", declarations := [("1a", "http://e/")] }
    let c : CompactName := ⟨"1a", "p", by decide +kernel, by decide +kernel, by decide⟩
    settings.validate = .ok () ∧
    found r.dataVocabulary = some [] ∧
    found (r.vocabulary settings) = some [⟨"http://e/a"⟩] ∧
    c.iri? numbered.dataVocabulary = some ⟨"http://e/p"⟩ ∧
    c.read? (numbered.vocabulary {}) = none := by
  intro settings r found numbered c
  refine ⟨by decide +kernel, by decide +kernel, by decide +kernel, by decide +kernel,
    by decide +kernel⟩

end CommandLine

end GraphPath
