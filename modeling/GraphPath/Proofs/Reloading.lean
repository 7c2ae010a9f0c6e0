import GraphPath.Proofs.Brackets
import GraphPath.Proofs.StoreHistory

/-!
# Printed statements are read back

Statements printed one on a line are read back, in their order and under any vocabulary: each line
is one of the text, has no blanks at its ends, is neither idle nor a declaration, and each of its
words ends at the blank behind it. So what a store holds can be printed and loaded again.
-/

namespace GraphPath

/-- The statements that are read back as they are printed. -/
structure Quad.Legible (q : Quad) : Prop where
  subject : q.subject.WellFormed
  predicate : q.predicate.WellFormed
  object : q.object.WellFormed Literal.Legible
  graph : ∀ g ∈ q.graph, g.WellFormed

private theorem isLower_iff {tag : String} :
    tag.toList.map Char.toLower = tag.toList ↔ tag.map Char.toLower = tag := by
  rw [← String.toList_inj, String.toList_map]

instance (l : Literal) : Decidable l.Legible :=
  decidable_of_iff (l.WellFormed ∧
      (∀ tag ∈ l.language, tag.toList.map Char.toLower = tag.toList) ∧
        l.datatype ≠ some Iri.xsdString ∧ l.Unescaped)
    ⟨fun h => ⟨⟨h.1, fun tag htag => isLower_iff.1 (h.2.1 tag htag), h.2.2.1⟩, h.2.2.2⟩,
      fun h => ⟨h.toWellFormed, fun tag htag => isLower_iff.2 (h.lower tag htag), h.typed,
        h.unescaped⟩⟩

instance : (n : Node) → Decidable (n.WellFormed Literal.Legible)
  | .iri i => inferInstanceAs (Decidable i.WellFormed)
  | .literal l => inferInstanceAs (Decidable l.Legible)

instance (q : Quad) : Decidable q.Legible :=
  decidable_of_iff (q.subject.WellFormed ∧ q.predicate.WellFormed ∧
      q.object.WellFormed Literal.Legible ∧ ∀ g ∈ q.graph, g.WellFormed)
    ⟨fun h => ⟨h.1, h.2.1, h.2.2.1, h.2.2.2⟩,
      fun h => ⟨h.subject, h.predicate, h.object, h.graph⟩⟩

/-- The statements one on a line. -/
def Statements.render (quads : List Quad) : String := "\n".intercalate (quads.map Quad.render)

/-! ## Lines -/

namespace Text

private theorem lines_append_newline {line : List Char} (h : '\n' ∉ line) (rest : List Char) :
    lines (line ++ '\n' :: rest) = line :: lines rest := by
  induction line with
  | nil => simp [lines]
  | cons c line ih =>
    rw [List.mem_cons, not_or] at h
    rw [List.cons_append, lines, if_neg (Ne.symm h.1), ih h.2]

private theorem lines_of_not_mem {line : List Char} (hne : line ≠ []) (h : '\n' ∉ line) :
    lines line = [line] := by
  induction line with
  | nil => exact absurd rfl hne
  | cons c line ih =>
    rw [List.mem_cons, not_or] at h
    rw [lines, if_neg (Ne.symm h.1)]
    cases line with
    | nil => rfl
    | cons d line => rw [ih (List.cons_ne_nil d line) h.2]

theorem lines_intercalate {ls : List (List Char)} (h : ∀ l ∈ ls, l ≠ [] ∧ '\n' ∉ l) :
    lines (['\n'].intercalate ls) = ls := by
  induction ls with
  | nil => rfl
  | cons line rest ih =>
    rw [List.forall_mem_cons] at h
    cases rest with
    | nil => simpa using lines_of_not_mem h.1.1 h.1.2
    | cons next rest =>
      rw [List.intercalate_cons_cons, List.append_assoc, List.singleton_append,
        lines_append_newline h.1.2, ih h.2]

theorem trim_eq_self {s : List Char} {c : Char} (hstart : skipBlanks (s ++ [c]) = s ++ [c])
    (hc : isBlank c = false) : trim (s ++ [c]) = s ++ [c] := by
  rw [trim, hstart, dropTrailingBlanks, List.reverse_append, List.reverse_singleton,
    List.singleton_append, skipBlanks_of_not_blank _ hc, List.reverse_cons, List.reverse_reverse]

end Text

/-! ## Words -/

theorem Iri.newline_not_mem_render (i : Iri) : '\n' ∉ i.render.toList := by
  have hbody : '\n' ∉ i.encoded.text.toList := by
    intro hmem
    exact absurd (i.not_forbidden_encoded _ hmem) (by decide)
  simp [toList_render, hbody]

private theorem Literal.newline_not_mem_suffix {l : Literal} (h : l.WellFormed) :
    '\n' ∉ l.suffix := by
  unfold suffix
  split
  · next tag htag =>
    have hclass := List.all_eq_true.1 (h.language tag htag).2 '\n'
    simp only [List.mem_cons, not_or]
    exact ⟨by decide, fun hmem => absurd (hclass hmem) (by decide)⟩
  · next datatype _ _ => simp [datatype.newline_not_mem_render]
  · simp

theorem Literal.newline_not_mem_render {l : Literal} (h : l.Legible) : '\n' ∉ l.render.toList := by
  have hvalue : '\n' ∉ l.value.toList := fun hmem => (h.unescaped _ hmem).2.2.1 rfl
  simp [toList_render, h.unescaped.flatMap_escapeChar, hvalue,
    newline_not_mem_suffix h.toWellFormed]

private theorem Node.newline_not_mem_render {n : Node} (h : n.WellFormed Literal.Legible) :
    '\n' ∉ n.render.toList := by
  cases n with
  | iri i => exact i.newline_not_mem_render
  | literal l => exact l.newline_not_mem_render h

/-! ## Statements -/

namespace Quad

/-- What stands behind the object of a printed statement and the blank after it. -/
def ending (q : Quad) : List Char :=
  match q.graph with
  | none => ['.']
  | some g => g.render.toList ++ [' ', '.']

private theorem toList_render (q : Quad) :
    q.render.toList = q.subject.render.toList ++ ' ' :: (q.predicate.render.toList ++
      ' ' :: (q.object.render.toList ++ ' ' :: q.ending)) := by
  unfold render ending
  cases q.graph <;> simp

private theorem skipBlanks_ending (q : Quad) : Text.skipBlanks q.ending = q.ending := by
  unfold ending
  cases q.graph with
  | none => exact Text.skipBlanks_of_not_blank [] (by decide)
  | some g => exact g.skipBlanks_render _

private theorem newline_not_mem_render {q : Quad} (h : q.Legible) : '\n' ∉ q.render.toList := by
  have hending : '\n' ∉ q.ending := by
    unfold ending
    cases q.graph <;> simp [Iri.newline_not_mem_render]
  simp [toList_render, Iri.newline_not_mem_render, Node.newline_not_mem_render h.object, hending]

end Quad

namespace Parser

theorem outcome_padded_word {α : Type} {p : Parser α} {a : α} {word k : List Char}
    (hword : Text.skipBlanks (word ++ ' ' :: k) = word ++ ' ' :: k)
    (hread : outcome p (word ++ ' ' :: k) = some (a, ' ' :: k)) (hk : Text.skipBlanks k = k) :
    outcome (padded p) (word ++ ' ' :: k) = some (a, k) := by
  rw [outcome_padded, hword, hread, Option.map_some, skipBlanks_cons, if_pos (by decide), hk]

private theorem outcome_padded_iri (v : Vocabulary) {i : Iri} (hi : i.WellFormed) {k : List Char}
    (hk : Text.skipBlanks k = k) :
    outcome (padded (iri v)) (i.render.toList ++ ' ' :: k) = some (i, k) :=
  outcome_padded_word (i.skipBlanks_render _) (outcome_iri v hi _) hk

private theorem outcome_padded_node (v : Vocabulary) {n : Node} (hn : n.WellFormed Literal.Legible)
    {k : List Char} (hk : Text.skipBlanks k = k) :
    outcome (padded (node v)) (n.render.toList ++ ' ' :: k) = some (n, k) :=
  outcome_padded_word (n.skipBlanks_render _) (outcome_node v hn (by simp [endsStep])) hk

private theorem outcome_graph (v : Vocabulary) {q : Quad} (hq : ∀ g ∈ q.graph, g.WellFormed) :
    outcome (optional (padded (iri v))) q.ending = some (q.graph, ['.']) := by
  unfold Quad.ending
  cases hgraph : q.graph with
  | none => simp +decide [iri, bracketedIri, compactName, skipBlanks_cons]
  | some g =>
    have hread := outcome_padded_iri v (hq g hgraph) (by decide : Text.skipBlanks ['.'] = ['.'])
    rw [outcome_optional, hread]
    rfl

private theorem outcome_statement (v : Vocabulary) {q : Quad} (hq : q.Legible) :
    outcome (statement v) q.render.toList = some (q, []) := by
  have hsubject := outcome_padded_iri v hq.subject (q.predicate.skipBlanks_render
    (' ' :: (q.object.render.toList ++ ' ' :: q.ending)))
  have hpredicate := outcome_padded_iri v hq.predicate
    (q.object.skipBlanks_render (' ' :: q.ending))
  have hobject := outcome_padded_node v hq.object q.skipBlanks_ending
  have hgraph := outcome_graph v hq.graph
  rw [Quad.toList_render, statement, outcome_bind, hsubject, Option.bind_some, outcome_bind,
    hpredicate, Option.bind_some, outcome_bind, hobject, Option.bind_some, outcome_bind, hgraph]
  rfl

end Parser

namespace Quad

private theorem skipBlanks_render (q : Quad) :
    Text.skipBlanks q.render.toList = q.render.toList := by
  rw [toList_render]
  exact q.subject.skipBlanks_render _

private theorem exists_render_eq_append (q : Quad) : ∃ s, q.render.toList = s ++ ['.'] := by
  obtain ⟨k, hk⟩ : ∃ k, q.ending = k ++ ['.'] := by
    unfold ending
    cases q.graph with
    | none => exact ⟨[], rfl⟩
    | some g => exact ⟨g.render.toList ++ [' '], by simp⟩
  refine ⟨q.subject.render.toList ++ ' ' :: (q.predicate.render.toList ++
    ' ' :: (q.object.render.toList ++ ' ' :: k)), ?_⟩
  simp [toList_render, hk]

private theorem trim_render (q : Quad) : Text.trim q.render.toList = q.render.toList := by
  obtain ⟨s, hs⟩ := q.exists_render_eq_append
  have hstart := q.skipBlanks_render
  rw [hs] at hstart ⊢
  exact Text.trim_eq_self hstart (by decide)

private theorem head?_render (q : Quad) : q.render.toList.head? = some '<' := by
  rw [toList_render, Iri.toList_render]
  rfl

private theorem render_ne_nil (q : Quad) : q.render.toList ≠ [] := by
  intro hnil
  have hhead := q.head?_render
  rw [hnil] at hhead
  cases hhead

end Quad

namespace Statements

variable (v : Vocabulary) {q : Quad} {quads : List Quad}

private theorem run_statementLine_render (hq : q.Legible) :
    (Parser.statementLine v).run (Text.trim q.render.toList) = .ok (.inr q) := by
  have hdeclaration : Parser.outcome Parser.declaration q.render.toList = none :=
    outcome_declaration_of_ne (by simp [q.head?_render])
  rw [q.trim_render, Parser.run_eq_ok_iff, Parser.statementLine, Parser.outcome_padded,
    q.skipBlanks_render, Parser.outcome_either, Parser.outcome_map, hdeclaration,
    Parser.outcome_map, Parser.outcome_statement v hq]
  rfl

private theorem stated_render (hq : q.Legible) : stated v q.render.toList = .ok [q] := by
  have hidle : isIdle (Text.trim q.render.toList) = false := by
    simp [isIdle, q.trim_render, q.head?_render, q.render_ne_nil]
  rw [stated, hidle, run_statementLine_render v hq]
  rfl

/-- Every line is read under the vocabulary that the first one is read under. -/
theorem parseFrom_render (n : Nat) (h : ∀ q ∈ quads, q.Legible) :
    parseFrom n v (quads.map fun q => q.render.toList) = .ok quads := by
  induction quads generalizing n with
  | nil => rfl
  | cons q rest ih =>
    rw [List.forall_mem_cons] at h
    have hvocabulary : advance v q.render.toList = v :=
      advance_of_not_declared (declared?_of_run_eq_inr (run_statementLine_render v h.1))
    rw [List.map_cons, parseFrom_cons, stated_render v h.1, hvocabulary, ih (n + 1) h.2]
    rfl

private theorem lines_render (h : ∀ q ∈ quads, q.Legible) :
    Text.lines (render quads).toList = quads.map fun q => q.render.toList := by
  rw [render, String.toList_intercalate, List.map_map]
  apply Text.lines_intercalate
  intro line hline
  obtain ⟨q, hq, rfl⟩ := List.mem_map.1 hline
  exact ⟨q.render_ne_nil, q.newline_not_mem_render (h q hq)⟩

private theorem parse_render (h : ∀ q ∈ quads, q.Legible) : parse v (render quads) = .ok quads := by
  rw [parse, lines_render h, parseFrom_render v 1 h]

end Statements

/-! ## Stores -/

namespace Store

private theorem extend_of_nodup {s : Store} {quads : List Quad} (h : (s.quads ++ quads).Nodup) :
    s.extend quads = ({ s with quads := s.quads ++ quads }, quads.length) := by
  induction quads generalizing s with
  | nil => simp [extend]
  | cons q rest ih =>
    have hnew : q ∉ s.quads := fun hmem =>
      (List.nodup_append.1 h).2.2 q hmem q List.mem_cons_self rfl
    have hinsert : s.insert q = ({ s with quads := s.quads ++ [q] }, true) := if_neg hnew
    rw [extend_cons, hinsert, ih (by simpa using h)]
    simp

/-- Printed statements are read back in their order, and a store without repeated statements is
what an empty one becomes when they are loaded. -/
theorem reload_printed (v : Vocabulary) {quads : List Quad} (h : ∀ q ∈ quads, q.Legible) :
    Statements.parse v (Statements.render quads) = .ok quads ∧
    ∀ s : Store, s.quads = quads → quads.Nodup →
      load { s with quads := [] } v (Statements.render quads) = .ok (s, quads.length) := by
  have hparse := Statements.parse_render v h
  refine ⟨hparse, fun s hs hdistinct => ?_⟩
  subst hs
  have hextend : ({ s with quads := [] } : Store).extend s.quads = (s, s.quads.length) :=
    extend_of_nodup hdistinct
  rw [load_eq, hparse, Except.map, hextend]

/-- A resource, a text with a tag, and one with a datatype in a graph, whose values have signs of
the format and other line breaks. -/
theorem reload_printed_each_kind :
    let v := Vocabulary.common.insert "" "http://e/"
    let subject : Iri := ⟨"http://e/#s"⟩
    let quads : List Quad := [
      ⟨subject, Iri.rdfType, .iri ⟨"urn:é"⟩, none⟩,
      ⟨subject, ⟨"p"⟩, .literal ⟨"# <a> 'b' .", some "en-gb", none⟩, none⟩,
      ⟨subject, ⟨"p"⟩, .literal (.typed "one\u2028two " ⟨"http://e/D"⟩), some ⟨"@prefix"⟩⟩]
    Statements.parse v (Statements.render quads) = .ok quads ∧
      load ⟨[], 10⟩ v (Statements.render quads) = .ok (⟨quads, 10⟩, 3) := by
  intro v subject quads
  have hlegible : ∀ q ∈ quads, q.Legible := by decide +kernel
  obtain ⟨hparse, hload⟩ := reload_printed v hlegible
  exact ⟨hparse, hload ⟨quads, 10⟩ rfl (by decide +kernel)⟩

end Store

end GraphPath
