import GraphPath.Proofs.CompactNames

/-!
# Statements with compact names

Statements written one on a line, with an IRI or a compact name in each place: as the subject, the
predicate, the object, the datatype of the object or the graph. A text of such statements is read
with a vocabulary exactly if every compact name in it is expanded, and then each stands for its
expansion.
-/

namespace GraphPath

/-- An IRI as it is written. -/
inductive WrittenIri where
  | full (i : Iri)
  | compact (c : CompactName)

namespace WrittenIri

def text : WrittenIri → String
  | full i => i.render
  | compact c => c.text

def iri? (v : Vocabulary) : WrittenIri → Option Iri
  | full i => some i
  | compact c => c.iri? v

def Proper : WrittenIri → Prop
  | full i => i.WellFormed
  | compact _ => True

end WrittenIri

/-- An object as it is written; a literal may have a compact name for its datatype. -/
inductive WrittenNode where
  | iri (i : WrittenIri)
  | literal (l : Literal)
  | typed (value : String) (datatype : CompactName)

namespace WrittenNode

def text : WrittenNode → String
  | iri i => i.text
  | literal l => l.render
  | typed value datatype => "\"" ++ value ++ "\"^^" ++ datatype.text

def node? (v : Vocabulary) : WrittenNode → Option Node
  | iri i => (i.iri? v).map .iri
  | literal l => some (.literal l)
  | typed value datatype => (datatype.iri? v).map fun i => .literal (.typed value i)

/-- The objects that are read as they are meant. A compact name is none that opens like a number. -/
def Proper : WrittenNode → Prop
  | iri (.full i) => i.WellFormed
  | iri (.compact c) => Parser.opensNumber c.text.toList = false
  | literal l => l.Legible
  | typed value _ => '"' ∉ value.toList ∧ '\n' ∉ value.toList

end WrittenNode

/-- A statement as it is written. -/
structure WrittenQuad where
  subject : WrittenIri
  predicate : WrittenIri
  object : WrittenNode
  graph : Option WrittenIri

namespace WrittenQuad

variable (q : WrittenQuad)

/-- What stands behind the object and the blank after it. -/
def ending : List Char :=
  match q.graph with
  | none => ['.']
  | some g => g.text.toList ++ [' ', '.']

def text : String :=
  q.subject.text ++ " " ++ q.predicate.text ++ " " ++ q.object.text ++ " " ++
    String.ofList q.ending

def graph? (v : Vocabulary) : Option (Option Iri) :=
  match q.graph with
  | none => some none
  | some g => (g.iri? v).map some

/-- The statement that is meant, if all its names are expanded. -/
def quad? (v : Vocabulary) : Option Quad := do
  let subject ← q.subject.iri? v
  let predicate ← q.predicate.iri? v
  let object ← q.object.node? v
  let graph ← q.graph? v
  return ⟨subject, predicate, object, graph⟩

structure Proper : Prop where
  subject : q.subject.Proper
  predicate : q.predicate.Proper
  object : q.object.Proper
  graph : ∀ g ∈ q.graph, g.Proper

/-- The statements one on a line. -/
def render (quads : List WrittenQuad) : String := "\n".intercalate (quads.map text)

end WrittenQuad

/-! ## Words -/

namespace WrittenIri

variable {i : WrittenIri}

private theorem exists_text_eq (i : WrittenIri) : ∃ c rest, i.text.toList = c :: rest ∧
    Text.isBlank c = false ∧ c ≠ '#' ∧ c ≠ '@' ∧ c ≠ '.' := by
  cases i with
  | full i =>
    refine ⟨'<', i.encoded.text.toList ++ ['>'], ?_, by decide⟩
    simp [text, Iri.toList_render]
  | compact c =>
    obtain ⟨d, e, rest, htext⟩ := c.exists_text_eq
    have hmem : d ∈ c.text.toList := by simp [htext]
    exact ⟨d, e :: rest, htext, c.not_blank hmem, c.ne_of_mem hmem (by decide),
      c.ne_of_mem hmem (by decide), c.ne_of_mem hmem (by decide)⟩

private theorem skipBlanks_text (i : WrittenIri) (k : List Char) :
    Text.skipBlanks (i.text.toList ++ k) = i.text.toList ++ k := by
  obtain ⟨c, rest, htext, hblank, -⟩ := i.exists_text_eq
  rw [htext]
  exact Text.skipBlanks_of_not_blank _ hblank

private theorem newline_not_mem_text (i : WrittenIri) : '\n' ∉ i.text.toList := by
  cases i with
  | full i => exact i.newline_not_mem_render
  | compact c => exact fun hmem => c.ne_of_mem hmem (by decide) rfl

end WrittenIri

namespace WrittenNode

private theorem toList_typed (value : String) (datatype : CompactName) :
    (typed value datatype).text.toList =
      '"' :: (value.toList ++ '"' :: '^' :: '^' :: datatype.text.toList) := by
  simp [text]

private theorem skipBlanks_text (n : WrittenNode) (k : List Char) :
    Text.skipBlanks (n.text.toList ++ k) = n.text.toList ++ k := by
  cases n with
  | iri i => exact i.skipBlanks_text k
  | literal l => exact (Node.literal l).skipBlanks_render k
  | typed value datatype =>
    rw [toList_typed]
    exact Text.skipBlanks_of_not_blank _ (by decide)

private theorem newline_not_mem_text {n : WrittenNode} (h : n.Proper) : '\n' ∉ n.text.toList := by
  cases n with
  | iri i => exact i.newline_not_mem_text
  | literal l => exact l.newline_not_mem_render h
  | typed value datatype =>
    have hdatatype : '\n' ∉ datatype.text.toList :=
      (WrittenIri.compact datatype).newline_not_mem_text
    rw [toList_typed]
    simpa [h.2] using hdatatype

end WrittenNode

namespace WrittenQuad

variable (q : WrittenQuad)

private theorem skipBlanks_ending : Text.skipBlanks q.ending = q.ending := by
  unfold ending
  cases q.graph with
  | none => exact Text.skipBlanks_of_not_blank [] (by decide)
  | some g => exact g.skipBlanks_text _

private theorem toList_text :
    q.text.toList = q.subject.text.toList ++ ' ' :: (q.predicate.text.toList ++
    ' ' :: (q.object.text.toList ++ ' ' :: q.ending)) := by
  simp [text]

private theorem newline_not_mem_text (h : q.Proper) : '\n' ∉ q.text.toList := by
  have hending : '\n' ∉ q.ending := by
    unfold ending
    cases q.graph <;> simp [WrittenIri.newline_not_mem_text]
  simp [toList_text, WrittenIri.newline_not_mem_text, WrittenNode.newline_not_mem_text h.object,
    hending]

end WrittenQuad

/-! ## Reading a statement -/

namespace Parser

variable (v : Vocabulary) {α β : Type} {k : List Char}

private theorem outcome_padded_option {p : Parser α} {o : Option α} {word : List Char}
    (hword : Text.skipBlanks (word ++ ' ' :: k) = word ++ ' ' :: k)
    (hread : outcome p (word ++ ' ' :: k) = o.map fun a => (a, ' ' :: k))
    (hk : Text.skipBlanks k = k) :
    outcome (padded p) (word ++ ' ' :: k) = o.map fun a => (a, k) := by
  cases o with
  | none =>
    rw [outcome_padded, hword, hread]
    rfl
  | some a => exact outcome_padded_word hword hread hk

private theorem blank_not_isNameChar : ∀ d ∈ (' ' :: k).head?, isNameChar d = false := by
  intro d hd
  cases hd
  decide

private theorem outcome_padded_written {i : WrittenIri} (hi : i.Proper)
    (hk : Text.skipBlanks k = k) :
    outcome (padded (iri v)) (i.text.toList ++ ' ' :: k) = (i.iri? v).map fun a => (a, k) := by
  apply outcome_padded_option (i.skipBlanks_text _) ?_ hk
  cases i with
  | full i => exact outcome_iri v hi _
  | compact c => exact outcome_iri_compact v c blank_not_isNameChar

private theorem outcome_ending {q : WrittenQuad} (hq : ∀ g ∈ q.graph, g.Proper)
    (f : Option Iri → β) :
    outcome (do
      let graph ← optional (padded (iri v))
      char '.'
      return f graph) q.ending = (q.graph? v).map fun g => (f g, []) := by
  unfold WrittenQuad.ending WrittenQuad.graph?
  cases hgraph : q.graph with
  | none => simp +decide [iri, bracketedIri, compactName, skipBlanks_cons]
  | some g =>
    have hread := outcome_padded_written v (hq g hgraph) (by decide : Text.skipBlanks ['.'] = ['.'])
    dsimp only
    rw [outcome_bind, outcome_optional, hread]
    cases g.iri? v with
    | some i => rfl
    | none =>
      obtain ⟨c, rest, htext, -, -, -, hpoint⟩ := g.exists_text_eq
      simp [htext, hpoint]

private theorem outcome_typed {value : String} (hvalue : '"' ∉ value.toList)
    (datatype : CompactName) :
    outcome (node v) ((WrittenNode.typed value datatype).text.toList ++ ' ' :: k) =
      ((datatype.iri? v).map fun i => (Node.literal (.typed value i), ' ' :: k)).or
        (some (.literal (.plain value), '^' :: '^' :: (datatype.text.toList ++ ' ' :: k))) := by
  have hread := outcome_iri_compact v datatype (k := ' ' :: k) blank_not_isNameChar
  have hquoted : outcome (quotedLiteral v)
      ((WrittenNode.typed value datatype).text.toList ++ ' ' :: k) =
      ((datatype.iri? v).map fun i => (Literal.typed value i, ' ' :: k)).or
        (some (.plain value, '^' :: '^' :: (datatype.text.toList ++ ' ' :: k))) := by
    have htext : (WrittenNode.typed value datatype).text.toList ++ ' ' :: k =
        '"' :: (value.toList ++ '"' :: '^' :: '^' :: (datatype.text.toList ++ ' ' :: k)) := by
      simp [WrittenNode.toList_typed]
    rw [htext]
    simp only [quotedLiteral, outcome_bind, outcome_quoted hvalue, Option.bind_some]
    cases hiri : datatype.iri? v <;> simp [hread, hiri]
  rw [node, outcome_lexeme, outcome_either, outcome_map, literal, outcome_either, hquoted]
  cases datatype.iri? v <;> rfl

private theorem outcome_node_written {n : WrittenNode} (hn : n.Proper) :
    outcome (node v) (n.text.toList ++ ' ' :: k) = ((n.node? v).map fun o => (o, ' ' :: k)) ∨
      n.node? v = none ∧
        ∃ o rest, outcome (node v) (n.text.toList ++ ' ' :: k) = some (o, '^' :: rest) := by
  have hk : EndsStep (' ' :: k) := by simp [endsStep]
  cases n with
  | iri i =>
    left
    cases i with
    | full i =>
      have hi : (Node.iri i).WellFormed Literal.Legible := hn
      exact outcome_node v hi hk
    | compact c =>
      have hread := outcome_node_compact v c (k := ' ' :: k) blank_not_isNameChar hn
      rw [WrittenNode.node?, WrittenIri.iri?, Option.map_map]
      exact hread
  | literal l =>
    have hl : (Node.literal l).WellFormed Literal.Legible := hn
    exact Or.inl (outcome_node v hl hk)
  | typed value datatype =>
    have hread := outcome_typed v (k := k) hn.1 datatype
    rw [WrittenNode.node?]
    cases hiri : datatype.iri? v with
    | none =>
      rw [hiri] at hread
      exact Or.inr ⟨rfl, _, _, hread⟩
    | some i =>
      rw [hiri] at hread
      exact Or.inl hread

private theorem outcome_object {q : WrittenQuad} (hq : q.Proper) (f : Node → Option Iri → β) :
    outcome (do
      let object ← padded (node v)
      let graph ← optional (padded (iri v))
      char '.'
      return f object graph) (q.object.text.toList ++ ' ' :: q.ending) =
      (q.object.node? v).bind fun o => (q.graph? v).map fun g => (f o g, []) := by
  rw [outcome_bind]
  rcases outcome_node_written v (k := q.ending) hq.object with hread | ⟨hnone, o, rest, hread⟩
  · rw [outcome_padded_option (q.object.skipBlanks_text _) hread q.skipBlanks_ending]
    cases q.object.node? v with
    | none => rfl
    | some o => exact outcome_ending v hq.graph (f o)
  · rw [outcome_padded, q.object.skipBlanks_text, hread, hnone]
    simp +decide [iri, bracketedIri, compactName, skipBlanks_cons]

private theorem outcome_written_statement {q : WrittenQuad} (hq : q.Proper) :
    outcome (statement v) q.text.toList = (q.quad? v).map fun x => (x, []) := by
  have hsubject := outcome_padded_written v hq.subject (q.predicate.skipBlanks_text
    (' ' :: (q.object.text.toList ++ ' ' :: q.ending)))
  have hpredicate := outcome_padded_written v hq.predicate
    (q.object.skipBlanks_text (' ' :: q.ending))
  rw [WrittenQuad.toList_text, statement, outcome_bind, hsubject, WrittenQuad.quad?]
  cases q.subject.iri? v with
  | none => rfl
  | some subject =>
    rw [Option.map_some, Option.bind_some, outcome_bind, hpredicate]
    cases q.predicate.iri? v with
    | none => rfl
    | some predicate =>
      rw [Option.map_some, Option.bind_some, outcome_object v hq]
      cases q.object.node? v with
      | none => rfl
      | some object => cases q.graph? v <;> rfl

end Parser

/-! ## Reading a text -/

namespace WrittenQuad

variable (q : WrittenQuad)

private theorem skipBlanks_text : Text.skipBlanks q.text.toList = q.text.toList := by
  rw [toList_text]
  exact q.subject.skipBlanks_text _

private theorem exists_text_eq_append : ∃ s, q.text.toList = s ++ ['.'] := by
  obtain ⟨k, hk⟩ : ∃ k, q.ending = k ++ ['.'] := by
    unfold ending
    cases q.graph with
    | none => exact ⟨[], rfl⟩
    | some g => exact ⟨g.text.toList ++ [' '], by simp⟩
  refine ⟨q.subject.text.toList ++ ' ' :: (q.predicate.text.toList ++
    ' ' :: (q.object.text.toList ++ ' ' :: k)), ?_⟩
  simp [toList_text, hk]

private theorem trim_text : Text.trim q.text.toList = q.text.toList := by
  obtain ⟨s, hs⟩ := q.exists_text_eq_append
  have hstart := q.skipBlanks_text
  rw [hs] at hstart ⊢
  exact Text.trim_eq_self hstart (by decide)

private theorem exists_text_eq_cons : ∃ c rest, q.text.toList = c :: rest ∧ c ≠ '#' ∧ c ≠ '@' := by
  obtain ⟨c, rest, htext, -, hcomment, hdeclaration, -⟩ := q.subject.exists_text_eq
  rw [toList_text, htext]
  exact ⟨c, _, rfl, hcomment, hdeclaration⟩

end WrittenQuad

namespace Statements

variable (v : Vocabulary) {q : WrittenQuad} {quads : List WrittenQuad}

private theorem isIdle_written (q : WrittenQuad) : isIdle q.text.toList = false := by
  obtain ⟨c, rest, htext, hcomment, -⟩ := q.exists_text_eq_cons
  simp [isIdle, htext, hcomment]

private theorem run_written (hq : q.Proper) :
    ((Parser.statementLine v).run q.text.toList).toOption = (q.quad? v).map .inr := by
  have hdeclaration : Parser.outcome Parser.declaration q.text.toList = none := by
    obtain ⟨c, rest, htext, -, hdeclaration⟩ := q.exists_text_eq_cons
    exact outcome_declaration_of_ne (by simp [htext, hdeclaration])
  apply Option.ext
  intro x
  rw [Parser.toOption_run_eq_some_iff, Parser.statementLine, Parser.outcome_padded,
    q.skipBlanks_text, Parser.outcome_either, Parser.outcome_map, hdeclaration, Parser.outcome_map,
    Parser.outcome_written_statement v hq]
  cases q.quad? v <;> simp [Text.skipBlanks]

private theorem parseFrom_written (n : Nat) (h : ∀ q ∈ quads, q.Proper) :
    (parseFrom n v (quads.map fun q => q.text.toList)).toOption =
      quads.mapM fun q => q.quad? v := by
  induction quads generalizing n with
  | nil => rfl
  | cons q rest ih =>
    rw [List.forall_mem_cons] at h
    have hrun := run_written v h.1
    have hrest := ih (n + 1) h.2
    rw [List.map_cons, parseFrom, q.trim_text, isIdle_written, List.mapM_cons, ← hrest]
    cases hread : (Parser.statementLine v).run q.text.toList with
    | error failure =>
      rw [hread] at hrun
      rw [Option.map_eq_none_iff.1 hrun.symm]
      rfl
    | ok x =>
      rw [hread] at hrun
      obtain ⟨quad, hquad, rfl⟩ := Option.map_eq_some_iff.1 hrun.symm
      rw [hquad]
      cases parseFrom (n + 1) v (rest.map fun q => q.text.toList) <;> rfl

private theorem lines_written (h : ∀ q ∈ quads, q.Proper) :
    Text.lines (WrittenQuad.render quads).toList = quads.map fun q => q.text.toList := by
  rw [WrittenQuad.render, String.toList_intercalate, List.map_map]
  apply Text.lines_intercalate
  intro line hline
  obtain ⟨q, hq, rfl⟩ := List.mem_map.1 hline
  obtain ⟨c, rest, htext, -⟩ := q.exists_text_eq_cons
  exact ⟨by simp [htext], q.newline_not_mem_text (h q hq)⟩

/-- A text of written statements is read exactly if all its names are expanded. -/
theorem parse_written (h : ∀ q ∈ quads, q.Proper) :
    (parse v (WrittenQuad.render quads)).toOption = quads.mapM fun q => q.quad? v := by
  rw [parse, lines_written h, parseFrom_written v 1 h]

end Statements

end GraphPath
