import GraphPath.Path.Grammar
import GraphPath.Proofs.Outcomes
import GraphPath.Store.Statements

/-!
# What reading asks of a vocabulary

Statements and path expressions are read with a vocabulary, but only the short names that stand in
their text are looked up. So two vocabularies that agree on these read the text alike, with the same
result or the same error. A parser leaves an end of the text that it reads, so all that is looked up
stands in the text that the first parser was given.
-/

namespace GraphPath

/-- The vocabularies agree on every short name that stands before a colon in the text. A word may
start inside another one, so every end of a word counts. -/
def Vocabulary.AgreeOn (v w : Vocabulary) (t : List Char) : Prop :=
  ∀ short : String, short.toList.all Parser.isNameChar = true →
    short.toList ++ [':'] <:+: t → v.get? short = w.get? short

namespace Parser

variable {α β : Type} {t : List Char}

/-- The parsers give the same reply on every end of a text, and leave an end of it. -/
def Alike (t : List Char) (p q : Parser α) : Prop :=
  ∀ s, s <:+ t → p s = q s ∧ ∀ r, (p s).result = some r → r.rest <:+ t

theorem Alike.suffix {p q : Parser α} (h : Alike t p q) {s k : List Char} {a : α} (hs : s <:+ t)
    (hread : outcome p s = some (a, k)) : k <:+ t := by
  obtain ⟨r, hr, hx⟩ := Option.map_eq_some_iff.1 hread
  cases hx
  exact (h s hs).2 r hr

/-! ## Combinators -/

private theorem alike_pure (a : α) : Alike t (pure a : Parser α) (pure a) := by
  intro s hs
  refine ⟨rfl, fun r hr => ?_⟩
  cases hr
  exact hs

private theorem Alike.bind {p q : Parser α} {f g : α → Parser β} (h : Alike t p q)
    (hf : ∀ a, Alike t (f a) (g a)) : Alike t (p >>= f) (q >>= g) := by
  intro s hs
  obtain ⟨heq, hrest⟩ := h s hs
  change andThen p f s = andThen q g s ∧ ∀ r, (andThen p f s).result = some r → r.rest <:+ t
  unfold andThen
  rw [← heq]
  cases hp : p s with
  | mk result failure =>
    cases result with
    | none => exact ⟨rfl, fun r hr => by cases hr⟩
    | some x =>
      obtain ⟨heq', hrest'⟩ := hf x.value x.rest (hrest x (by rw [hp]))
      simp only [← heq', true_and]
      intro r hr
      obtain ⟨y, hy, rfl⟩ := Option.map_eq_some_iff.1 hr
      exact hrest' y hy

theorem Alike.map {p q : Parser α} (h : Alike t p q) (f : α → β) :
    Alike t (f <$> p) (f <$> q) := by
  rw [map_eq_pure_bind, map_eq_pure_bind]
  exact h.bind fun a => alike_pure (f a)

private theorem Alike.either {p q p' q' : Parser α} (h : Alike t p q) (h' : Alike t p' q') :
    Alike t (either p p') (either q q') := by
  intro s hs
  obtain ⟨heq, hrest⟩ := h s hs
  obtain ⟨heq', hrest'⟩ := h' s hs
  unfold Parser.either
  rw [← heq]
  cases hp : p s with
  | mk result failure =>
    cases result with
    | none => exact ⟨by rw [heq'], hrest'⟩
    | some x => exact ⟨rfl, fun r hr => hrest r (by rw [hp]; exact hr)⟩

private theorem alike_firstOf_nil : Alike t (firstOf [] : Parser α) (firstOf []) := by
  intro s hs
  exact ⟨rfl, fun r hr => by cases hr⟩

private theorem Alike.firstOf_cons {p q : Parser α} {ps qs : List (Parser α)} (h : Alike t p q)
    (hrest : Alike t (firstOf ps) (firstOf qs)) : Alike t (firstOf (p :: ps)) (firstOf (q :: qs)) :=
  h.either hrest

private theorem Alike.rounds {p q : Parser α} (h : Alike t p q) (fuel : List Char) :
    Alike t (rounds p fuel) (rounds q fuel) := by
  induction fuel with
  | nil => exact (h.bind fun a => alike_pure [a]).either (alike_pure [])
  | cons c fuel ih =>
    exact (h.bind fun a => ih.bind fun rest => alike_pure (a :: rest)).either (alike_pure [])

private theorem Alike.many {p q : Parser α} (h : Alike t p q) : Alike t (many p) (many q) :=
  fun s hs => h.rounds s s hs

private theorem Alike.separated {o o' : Parser Unit} {p q : Parser α} (ho : Alike t o o')
    (h : Alike t p q) : Alike t (separated o p) (separated o' q) :=
  (h.bind fun first => (ho.bind fun _ => h).many.bind fun rest =>
    alike_pure (first :: rest)).either (alike_pure [])

private theorem Alike.optional {p q : Parser α} (h : Alike t p q) :
    Alike t (optional p) (optional q) :=
  (h.map some).either (alike_pure none)

theorem Alike.lexeme {p q : Parser α} (h : Alike t p q) : Alike t (lexeme p) (lexeme q) := by
  intro s hs
  obtain ⟨heq, hrest⟩ := h s hs
  exact ⟨by simp only [Parser.lexeme, heq], hrest⟩

private theorem Alike.checked {p q : Parser α} (h : Alike t p q) {f g : α → Except Reason β}
    (hfg : ∀ s, s <:+ t → ∀ r, (p s).result = some r → f r.value = g r.value) :
    Alike t (checked f p) (checked g q) := by
  intro s hs
  obtain ⟨heq, hrest⟩ := h s hs
  unfold Parser.checked
  rw [← heq]
  cases hp : p s with
  | mk result failure =>
    cases result with
    | none => exact ⟨rfl, fun r hr => by cases hr⟩
    | some x =>
      have hx : (p s).result = some x := by rw [hp]
      simp only [← hfg s hs x hx, true_and]
      intro r hr
      cases hf : f x.value with
      | error reason =>
        rw [hf] at hr
        cases hr
      | ok b =>
        rw [hf] at hr
        cases hr
        exact hrest x hx

/-! ## Parsers without a vocabulary -/

private theorem alike_satisfy (accepts : Char → Bool) :
    Alike t (satisfy accepts) (satisfy accepts) := by
  intro s hs
  refine ⟨rfl, fun r hr => ?_⟩
  cases s with
  | nil => cases hr
  | cons c s =>
    rw [satisfy] at hr
    split at hr
    · cases hr
      exact (List.suffix_cons c s).trans hs
    · cases hr

private theorem alike_char (c : Char) : Alike t (char c) (char c) :=
  (alike_satisfy _).bind fun _ => alike_pure ()

theorem alike_chars (cs : List Char) : Alike t (chars cs) (chars cs) := by
  induction cs with
  | nil => exact alike_pure ()
  | cons c cs ih => exact (alike_char c).bind fun _ => ih

private theorem alike_span (accepts : Char → Bool) : Alike t (span accepts) (span accepts) := by
  intro s hs
  refine ⟨rfl, fun r hr => ?_⟩
  cases hr
  exact (List.dropWhile_suffix accepts).trans hs

theorem alike_span1 (accepts : Char → Bool) : Alike t (span1 accepts) (span1 accepts) := by
  intro s hs
  refine ⟨rfl, fun r hr => (alike_span accepts s hs).2 r ?_⟩
  simp only [span1] at hr
  exact (Option.filter_eq_some_iff.1 hr).1

private theorem alike_skipBlanks : Alike t skipBlanks skipBlanks := by
  intro s hs
  refine ⟨rfl, fun r hr => ?_⟩
  cases hr
  exact (List.dropWhile_suffix Text.isBlank).trans hs

private theorem alike_atEnd : Alike t atEnd atEnd := by
  intro s hs
  refine ⟨rfl, fun r hr => ?_⟩
  cases s with
  | nil =>
    cases hr
    exact hs
  | cons c s => cases hr

private theorem Alike.padded {p q : Parser α} (h : Alike t p q) : Alike t (padded p) (padded q) :=
  alike_skipBlanks.bind fun _ => h.bind fun a => alike_skipBlanks.bind fun _ => alike_pure a

private theorem Alike.leftAssoc {p q : Parser α} {o o' : Parser Unit} (h : Alike t p q)
    (ho : Alike t o o') (join : α → α → α) :
    Alike t (leftAssoc join o p) (leftAssoc join o' q) :=
  h.bind fun first => (ho.padded.bind fun _ => h).many.bind fun rest =>
    alike_pure (rest.foldl join first)

private theorem Alike.filtered {p q : Parser α} (h : Alike t p q) (f : α → Except Reason β) :
    Alike t (Parser.checked f p) (Parser.checked f q) :=
  h.checked fun _ _ _ _ => rfl

private theorem alike_bracketedIri : Alike t bracketedIri bracketedIri := by
  have hwords : Alike t (do
      char '<'
      let body ← span1 isBracketChar
      char '>'
      return String.ofList body : Parser String) _ :=
    (alike_char '<').bind fun _ => (alike_span1 isBracketChar).bind fun body =>
      (alike_char '>').bind fun _ => alike_pure (String.ofList body)
  exact (hwords.filtered checkIri).lexeme

private theorem alike_quotedBy (quote : Char) : Alike t (quotedBy quote) (quotedBy quote) :=
  Alike.lexeme ((alike_char quote).bind fun _ => (alike_span _).bind fun body =>
    (alike_char quote).bind fun _ => alike_pure (String.ofList body))

private theorem alike_quoted : Alike t quoted quoted :=
  ((alike_quotedBy '\'').either (alike_quotedBy '"')).lexeme

private theorem alike_languageTag : Alike t languageTag languageTag :=
  ((alike_span1 isTagChar).map String.ofList).lexeme

theorem alike_numericLiteral : Alike t numericLiteral numericLiteral :=
  Alike.lexeme ((alike_char '-').optional.bind fun _ => (alike_span1 isDigit).bind fun _ =>
    ((alike_char '.').bind fun _ => alike_span1 isDigit).optional.bind fun _ => alike_pure _)

private theorem alike_integer : Alike t integer integer := ((alike_span1 isDigit).filtered _).lexeme

private theorem alike_keyword (word : String) : Alike t (keyword word) (keyword word) :=
  ((alike_span1 Text.isAlphabetic).filtered _).padded

private theorem alike_quantifier : Alike t quantifier quantifier :=
  ((alike_char '*').bind fun _ => alike_pure (0, none)).firstOf_cons <|
    ((alike_char '+').bind fun _ => alike_pure (1, none)).firstOf_cons <|
    ((alike_char '\x7b').bind fun _ => alike_integer.padded.optional.bind fun min =>
      (alike_char ',').bind fun _ => alike_integer.padded.optional.bind fun max =>
        (alike_char '\x7d').bind fun _ => alike_pure (min.getD 0, max)).firstOf_cons <|
    ((alike_char '\x7b').bind fun _ => alike_integer.padded.bind fun n =>
      (alike_char '\x7d').bind fun _ => alike_pure (n, some n)).firstOf_cons
    alike_firstOf_nil

private theorem alike_comparisonOperator : Alike t comparisonOperator comparisonOperator :=
  Alike.padded <|
    ((alike_chars ['!', '=']).bind fun _ => alike_pure Comparison.ne).firstOf_cons <|
    ((alike_chars ['<', '=']).bind fun _ => alike_pure Comparison.le).firstOf_cons <|
    ((alike_chars ['>', '=']).bind fun _ => alike_pure Comparison.ge).firstOf_cons <|
    ((alike_chars ['=', '=']).bind fun _ => alike_pure Comparison.eq).firstOf_cons <|
    ((alike_char '=').bind fun _ => alike_pure Comparison.eq).firstOf_cons <|
    ((alike_char '<').bind fun _ => alike_pure Comparison.lt).firstOf_cons <|
    ((alike_char '>').bind fun _ => alike_pure Comparison.gt).firstOf_cons
    alike_firstOf_nil

private theorem alike_languageTest : Alike t languageTest languageTest :=
  Alike.lexeme ((alike_char '@').bind fun _ => alike_languageTag.bind fun tag =>
    alike_pure (Test.language tag))

private theorem alike_declaration : Alike t declaration declaration :=
  (alike_chars _).bind fun _ => (alike_span isNameChar).padded.bind fun short =>
    (alike_char ':').bind fun _ => alike_bracketedIri.padded.bind fun ns =>
      (alike_char '.').bind fun _ => alike_pure (String.ofList short, ns)

/-! ## Parsers with a vocabulary -/

section

variable {v w : Vocabulary} (h : v.AgreeOn w t)
include h

private theorem expandName_eq {short : String} (hshort : short.toList.all isNameChar = true)
    (hmem : short.toList ++ [':'] <:+: t) (name : String) :
    expandName v short name = expandName w short name := by
  rw [expandName, expandName, Vocabulary.expand, Vocabulary.expand, h short hshort hmem]

private theorem alike_compactName : Alike t (compactName v) (compactName w) := by
  have hwords : Alike t (lexeme do
      let short ← span isNameChar
      char ':'
      let name ← span1 isNameChar
      return (String.ofList short, String.ofList name) : Parser (String × String)) _ :=
    Alike.lexeme ((alike_span isNameChar).bind fun short => (alike_char ':').bind fun _ =>
      (alike_span1 isNameChar).bind fun name =>
        alike_pure (String.ofList short, String.ofList name))
  apply hwords.checked
  intro s hs r hr
  -- the short name is the run that the text starts with, and a colon stands behind it
  have hread : outcome (lexeme do
      let short ← span isNameChar
      char ':'
      let name ← span1 isNameChar
      return (String.ofList short, String.ofList name) : Parser (String × String)) s =
      some (r.value, r.rest) := by
    rw [outcome, hr]
    rfl
  cases hcolon : s.dropWhile isNameChar with
  | nil => simp [hcolon] at hread
  | cons c behind =>
    by_cases hc : c = ':'
    · have hshort : r.value.1 = String.ofList (s.takeWhile isNameChar) := by
        simp [hcolon, hc] at hread
        exact hread.2 ▸ rfl
      have hsplit : s.takeWhile isNameChar ++ ':' :: behind = s := by
        rw [← hc, ← hcolon, List.takeWhile_append_dropWhile]
      apply expandName_eq h
      · simp [hshort]
      · rw [hshort, String.toList_ofList]
        refine List.IsInfix.trans ⟨[], behind, ?_⟩ hs.isInfix
        simpa using hsplit
    · simp [hcolon, hc] at hread

private theorem alike_iri : Alike t (iri v) (iri w) :=
  alike_bracketedIri.either (alike_compactName h)

private theorem alike_quotedLiteral : Alike t (quotedLiteral v) (quotedLiteral w) :=
  alike_quoted.bind fun value =>
    (((alike_char '@').bind fun _ => alike_languageTag.bind fun tag =>
        alike_pure (Literal.tagged value tag)).either
      ((alike_chars ['^', '^']).bind fun _ => (alike_iri h).bind fun datatype =>
        alike_pure (Literal.typed value datatype))).optional.bind fun literal? =>
      alike_pure (literal?.getD (Literal.plain value))

private theorem alike_literal : Alike t (literal v) (literal w) :=
  (alike_quotedLiteral h).either alike_numericLiteral

theorem alike_node : Alike t (node v) (node w) :=
  (((alike_literal h).map Node.literal).either ((alike_iri h).map Node.iri)).lexeme

private theorem alike_statement : Alike t (statement v) (statement w) :=
  (alike_iri h).padded.bind fun subject => (alike_iri h).padded.bind fun predicate =>
    (alike_node h).padded.bind fun object => (alike_iri h).padded.optional.bind fun graph =>
      (alike_char '.').bind fun _ => alike_pure (Quad.mk subject predicate object graph)

private theorem alike_statementLine : Alike t (statementLine v) (statementLine w) :=
  ((alike_declaration.map Sum.inl).either ((alike_statement h).map Sum.inr)).padded

/-! ### Path expressions -/

variable {selector selector' : Parser Selector} {test test' : Parser Test}

private theorem alike_atom (hselector : Alike t selector selector') :
    Alike t (atom v selector) (atom w selector') :=
  have hcall : Alike t (functionCall selector) (functionCall selector') :=
    Alike.lexeme ((alike_chars _).bind fun _ =>
      ((alike_span1 isIdentifierChar).map String.ofList).lexeme.bind fun name =>
      (alike_char '(').padded.bind fun _ =>
      ((alike_char ',').separated hselector.padded).bind fun args =>
      (alike_char ')').bind fun _ => alike_pure (Selector.function name args))
  have hreverse : Alike t (reverseProperty v) (reverseProperty w) :=
    Alike.lexeme ((alike_char '^').bind fun _ => (alike_iri h).bind fun p =>
      alike_pure (Selector.reverse p))
  have hgrouped : Alike t (grouped selector) (grouped selector') :=
    Alike.filtered ((alike_char '(').bind fun _ => hselector.padded.bind fun inner =>
      (alike_char ')').bind fun _ => alike_quantifier.optional.bind fun bounds =>
        alike_pure (inner, bounds)) closeGroup
  Alike.padded <| hcall.firstOf_cons <| hreverse.firstOf_cons <| hgrouped.firstOf_cons <|
    ((alike_char '.').bind fun _ => alike_pure Selector.self).firstOf_cons <|
    ((alike_char '*').bind fun _ => alike_pure Selector.wildcard).firstOf_cons <|
    ((alike_literal h).map fun l => Selector.constant (.literal l)).firstOf_cons <|
    ((alike_iri h).map Selector.property).firstOf_cons
    alike_firstOf_nil

private theorem alike_selectorLevel (hselector : Alike t selector selector')
    (htest : Alike t test test') :
    Alike t (selectorLevel v selector test) (selectorLevel w selector' test') := by
  have htests : Alike t (padded do
      char '['
      let x ← padded test
      char ']'
      return x) _ :=
    Alike.padded ((alike_char '[').bind fun _ => htest.padded.bind fun x =>
      (alike_char ']').bind fun _ => alike_pure x)
  have hstep : Alike t (step v selector test) (step w selector' test') :=
    (alike_atom h hselector).bind fun first => htests.many.bind fun tests =>
      alike_pure (tests.foldl Selector.testing first)
  exact ((hstep.leftAssoc (alike_char '/') _).leftAssoc (alike_char '&') _).leftAssoc
    (alike_char '|') _

private theorem alike_pathTest (hselector : Alike t selector selector') :
    Alike t (pathTest v selector) (pathTest w selector') :=
  have hoperand : Alike t (operand v selector) (operand w selector') :=
    ((alike_literal h).map fun l => Selector.constant (.literal l)).padded.either hselector
  hselector.bind fun left =>
    (((alike_keyword "is").bind fun _ => (alike_node h).padded.bind fun right =>
        alike_pure (Test.pathEquality left (.constant right))).either
      (alike_comparisonOperator.bind fun op => hoperand.bind fun right =>
        alike_pure (Test.comparison op left right))).optional.bind fun test? =>
      alike_pure (test?.getD (.pathExists left))

private theorem alike_primaryTest (hselector : Alike t selector selector')
    (htest : Alike t test test') :
    Alike t (primaryTest v selector test) (primaryTest w selector' test') :=
  have htype : Alike t (typeTest v) (typeTest w) :=
    Alike.lexeme ((alike_chars _).padded.bind fun _ => (alike_node h).bind fun type =>
      alike_pure (Test.isA (.constant type)))
  have hdatatype : Alike t (datatypeTest v) (datatypeTest w) :=
    Alike.lexeme ((alike_chars _).bind fun _ => (alike_iri h).bind fun type =>
      alike_pure (Test.datatype type))
  Alike.padded <| htype.firstOf_cons <| alike_languageTest.firstOf_cons <|
    hdatatype.firstOf_cons <| (alike_pathTest h hselector).firstOf_cons <|
    ((alike_char '(').bind fun _ => htest.padded.bind fun x =>
      (alike_char ')').bind fun _ => alike_pure x).firstOf_cons
    alike_firstOf_nil

private theorem alike_testLevel (hselector : Alike t selector selector')
    (htest : Alike t test test') :
    Alike t (testLevel v selector test) (testLevel w selector' test') := by
  have hunary : Alike t (unaryTest v selector test) (unaryTest w selector' test') :=
    ((alike_char '!').either (alike_keyword "not")).padded.many.bind fun negations =>
      (alike_primaryTest h hselector htest).bind fun inner =>
        alike_pure (negations.foldl (fun t _ => Test.not t) inner)
  exact (hunary.leftAssoc ((alike_char '&').either (alike_keyword "and")) _).leftAssoc
    ((alike_char '|').either (alike_keyword "or")) _

private theorem alike_levels (n : Nat) :
    Alike t (selectorAt v n) (selectorAt w n) ∧ Alike t (testAt v n) (testAt w n) := by
  induction n with
  | zero => exact ⟨alike_firstOf_nil, alike_firstOf_nil⟩
  | succ n ih =>
    have hselector := alike_selectorLevel h ih.1 ih.2
    exact ⟨hselector, alike_testLevel h hselector ih.2⟩

private theorem alike_pathExpression : Alike t (pathExpression v) (pathExpression w) :=
  fun s hs => (alike_levels h (s.length + 1)).1.padded s hs

end

theorem Alike.run_eq {p q : Parser α} (h : Alike t p q) : run p t = run q t := by
  have hwhole := h.bind fun a => (alike_atEnd (t := t)).bind fun _ => alike_pure a
  have hreply := (hwhole t List.suffix_rfl).1
  unfold run
  dsimp only
  rw [hreply]

end Parser

/-! ## Texts of statements -/

namespace Text

private theorem prefix_of_lines_eq_cons {line text : List Char} {more : List (List Char)}
    (h : lines text = line :: more) : line <+: text := by
  induction text generalizing line more with
  | nil => cases h
  | cons c rest ih =>
    rw [lines] at h
    split at h
    · cases h
      exact List.nil_prefix
    · split at h
      · cases h
        exact (List.prefix_cons_inj c).2 List.nil_prefix
      · next first more' hrest =>
        cases h
        exact (List.prefix_cons_inj c).2 (ih hrest)

private theorem infix_of_mem_lines {line text : List Char} (h : line ∈ lines text) :
    line <:+: text := by
  induction text generalizing line with
  | nil => cases h
  | cons c rest ih =>
    have hrest : rest <:+: c :: rest := (List.suffix_cons c rest).isInfix
    rcases hlines : lines (c :: rest) with _ | ⟨first, more⟩
    · rw [hlines] at h
      cases h
    · rw [hlines, List.mem_cons] at h
      rcases h with rfl | hmore
      · exact (prefix_of_lines_eq_cons hlines).isInfix
      · refine (ih ?_).trans hrest
        rw [lines] at hlines
        split at hlines
        · cases hlines
          exact hmore
        · split at hlines
          · cases hlines
            cases hmore
          · next first' more' hrest' =>
            cases hlines
            rw [hrest']
            exact List.mem_cons_of_mem _ hmore

theorem isInfix_trim (s : List Char) : trim s <:+: s := by
  have hstart : skipBlanks s <:+: s := (List.dropWhile_suffix isBlank).isInfix
  have hend : trim s <+: skipBlanks s := by
    rw [trim, dropTrailingBlanks, ← List.reverse_suffix, List.reverse_reverse]
    exact List.dropWhile_suffix isBlank
  exact hend.isInfix.trans hstart

end Text

namespace Vocabulary

variable {v w : Vocabulary} {t : List Char}

theorem AgreeOn.mono {t' : List Char} (h : v.AgreeOn w t) (ht : t' <:+: t) :
    v.AgreeOn w t' := by
  intro short hshort hmem
  exact h short hshort (hmem.trans ht)

private theorem AgreeOn.insert (h : v.AgreeOn w t) (short ns : String) :
    AgreeOn (v.insert short ns) (w.insert short ns) t := by
  intro short' hshort hmem
  rw [Table.get?_insert, Table.get?_insert, h short' hshort hmem]

end Vocabulary

theorem Selector.parse_eq_of_agreeOn {v w : Vocabulary} {input : String}
    (h : v.AgreeOn w input.toList) : Selector.parse v input = Selector.parse w input := by
  rw [Selector.parse, Selector.parse, (Parser.alike_pathExpression h).run_eq]

namespace Statements

private theorem parseFrom_eq_of_agreeOn {v w : Vocabulary} {lines : List (List Char)}
    (h : ∀ line ∈ lines, v.AgreeOn w line) (n : Nat) :
    parseFrom n v lines = parseFrom n w lines := by
  induction lines generalizing n v w with
  | nil => rfl
  | cons line rest ih =>
    rw [List.forall_mem_cons] at h
    have hrun : (Parser.statementLine v).run (Text.trim line) =
        (Parser.statementLine w).run (Text.trim line) :=
      (Parser.alike_statementLine (h.1.mono (Text.isInfix_trim line))).run_eq
    rw [parseFrom, parseFrom, hrun, ih h.2]
    split
    · rfl
    · split
      · rfl
      · exact ih (fun line hline => (h.2 line hline).insert _ _) (n + 1)
      · rfl

/-- A text is read alike with two vocabularies that agree on the short names in it. -/
theorem parse_eq_of_agreeOn {v w : Vocabulary} {text : String} (h : v.AgreeOn w text.toList) :
    parse v text = parse w text :=
  parseFrom_eq_of_agreeOn (fun _ hline => h.mono (Text.infix_of_mem_lines hline)) 1

end Statements

end GraphPath
