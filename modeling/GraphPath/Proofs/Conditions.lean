import GraphPath.Proofs.Rereading

/-!
# Printed tests are read back

The tests of a printed path expression, and with them its levels of nesting. Parentheses open both
a test and a selector, and a selector is tried first: it is refused, since two tests in
parentheses have a word between them where a selector would have to be closed.
-/

namespace GraphPath

namespace Parser

/-- What follows a printed test: a closing bracket, or a word and another test. -/
inductive EndsTest : List Char → Prop
  | bracket {c : Char} (h : c = ']' ∨ c = ')') (k : List Char) : EndsTest (c :: k)
  | word {word : List Char} {join : Test → Test → Test} (h : Connects word join) (k : List Char) :
    EndsTest (' ' :: (word ++ ' ' :: k))

private theorem EndsTest.ends {k : List Char} (h : EndsTest k) : Ends ['[', '/', '&', '|'] k := by
  cases h with
  | bracket h k => rcases h with rfl | rfl <;> simp +decide [Ends, skipBlanks_cons]
  | word h k => cases h <;> simp +decide [Ends, skipBlanks_cons]

private theorem EndsTest.is_refuses {k : List Char} (h : EndsTest k) :
    outcome (keyword "is") (Text.skipBlanks k) = none := by
  cases h with
  | bracket h k => rcases h with rfl | rfl <;> simp +decide [keyword, skipBlanks_cons]
  | word h k => cases h <;> simp +decide [keyword, skipBlanks_cons, Except.toOption]

private theorem EndsTest.comparisonOperator_refuses {k : List Char} (h : EndsTest k) :
    outcome comparisonOperator (Text.skipBlanks k) = none := by
  cases h with
  | bracket h k => rcases h with rfl | rfl <;> simp +decide [comparisonOperator, skipBlanks_cons]
  | word h k => cases h <;> simp +decide [comparisonOperator, skipBlanks_cons]

/-- A negation in front of a test. -/
def negation : Parser Unit := padded (either (char '!') (keyword "not"))

private theorem Opens.negation_refuses {s : List Char} (h : Opens s) :
    outcome negation s = none := by
  cases h with
  | mark hc s =>
    simp only [List.mem_cons, List.not_mem_nil, or_false] at hc
    rcases hc with rfl | rfl | rfl | rfl | rfl <;>
      simp +decide [negation, keyword, skipBlanks_cons]
  | reverse s => simp +decide [negation, keyword, skipBlanks_cons]
  | call s => simp +decide [negation, keyword, skipBlanks_cons, Except.toOption]

private theorem Opens.outcome_primaryTest (v : Vocabulary) {s : List Char} (h : Opens s)
    (selector : Parser Selector) (test : Parser Test) :
    outcome (primaryTest v selector test) s =
      ((outcome (pathTest v selector) s).or
        (outcome (do char '('; let t ← padded test; char ')'; return t) s)).map
          fun x => (x.1, Text.skipBlanks x.2) := by
  have hwords : outcome (typeTest v) s = none ∧ outcome languageTest s = none ∧
      outcome (datatypeTest v) s = none := by
    cases h with
    | mark hc s =>
      simp only [List.mem_cons, List.not_mem_nil, or_false] at hc
      rcases hc with rfl | rfl | rfl | rfl | rfl <;>
        simp +decide [typeTest, languageTest, datatypeTest, skipBlanks_cons]
    | reverse s => simp +decide [typeTest, languageTest, datatypeTest, skipBlanks_cons]
    | call s => simp +decide [typeTest, languageTest, datatypeTest, skipBlanks_cons]
  obtain ⟨htype, hlanguage, hdatatype⟩ := hwords
  rw [primaryTest, outcome_padded, h.skipBlanks]
  simp only [outcome_firstOf_cons, outcome_firstOf_nil, htype, hlanguage, hdatatype,
    Option.none_or, Option.or_none]

end Parser

private theorem Selector.literal_refuses_render (v : Vocabulary) {ok : Literal → Prop}
    {s : Selector} (hs : s.WellFormed ok) (hopens : s.opensWithLiteral = false) (k : List Char) :
    Parser.outcome (Parser.literal v) (s.render.toList ++ k) = none := by
  cases s with
  | property p =>
    rw [Selector.WellFormed] at hs
    simpa [Selector.render, hs.toList_render] using
      Parser.literal_refuses v (c := '<') (p.text.toList ++ '>' :: k) (by decide)
  | path l r =>
    rw [Selector.WellFormed] at hs
    simpa [Selector.render] using
      Selector.literal_refuses_render v hs.1 hopens ('/' :: (r.render.toList ++ k))
  | testing s t =>
    rw [Selector.WellFormed] at hs
    simpa [Selector.render] using
      Selector.literal_refuses_render v hs.1 hopens ('[' :: (t.render.toList ++ ']' :: k))
  | constant n =>
    obtain ⟨l, rfl, -⟩ := hs
    cases hopens
  | _ => simpa [Selector.render] using Parser.literal_refuses v _ (by decide)

namespace Parser

variable (v : Vocabulary) {selector : Parser Selector} {test : Parser Test} {n : Nat}

private theorem outcome_operand (h : ReadsInner selector test n) {s : Selector}
    (hs : s.WellFormed Literal.Legible) (hliteral : s.opensWithLiteral → s.isLiteral)
    (hsize : s.size ≤ n) {k : List Char} (hk : EndsTest k) :
    outcome (operand v (selectorLevel v selector test)) (s.render.toList ++ k) =
      some (s.reread, Text.skipBlanks k) := by
  cases hopens : s.opensWithLiteral with
  | false =>
    have hrefuses := s.literal_refuses_render v hs hopens k
    have hread := outcome_selectorLevel v h hs hsize hk.ends
    simp [operand, (s.opens hs k).skipBlanks, hrefuses, hread]
  | true =>
    have hconstant := hliteral hopens
    unfold Selector.isLiteral at hconstant
    split at hconstant
    · next l =>
      have hblank := (Selector.opens hs k).skipBlanks
      obtain ⟨l', heq, hl⟩ := hs
      cases heq
      have hread := outcome_literal v hl hk.ends.1
      simp only [Selector.render, Node.render] at hblank ⊢
      simp [operand, hblank, hread, Selector.reread]
    · cases hconstant

/-! ## One test -/

private theorem outcome_pathTest_exists (h : ReadsInner selector test n) {s : Selector}
    (hs : s.WellFormed Literal.Legible) (hsize : s.size ≤ n) {k : List Char} (hk : EndsTest k) :
    outcome (pathTest v (selectorLevel v selector test)) (s.render.toList ++ k) =
      some (.pathExists s.reread, Text.skipBlanks k) := by
  have hread := outcome_selectorLevel v h hs hsize hk.ends
  simp [pathTest, hread, hk.is_refuses, hk.comparisonOperator_refuses]

private theorem outcome_pathTest_equality (h : ReadsInner selector test n) {s : Selector}
    (hs : s.WellFormed Literal.Legible) (hsize : s.size ≤ n) {m : Node}
    (hm : m.WellFormed Literal.Legible) {k : List Char} (hk : EndsTest k) :
    outcome (pathTest v (selectorLevel v selector test))
      (s.render.toList ++ ' ' :: 'i' :: 's' :: ' ' :: (m.render.toList ++ k)) =
      some (.pathEquality s.reread (.constant m), Text.skipBlanks k) := by
  have hread := outcome_selectorLevel v h hs hsize
    (k := ' ' :: 'i' :: 's' :: ' ' :: (m.render.toList ++ k))
    (by simp +decide [Ends, skipBlanks_cons])
  have hnode := outcome_node v hm hk.ends.1
  have hkeyword : outcome (keyword "is") ('i' :: 's' :: ' ' :: (m.render.toList ++ k)) =
      some ((), Text.skipBlanks (m.render.toList ++ k)) := by
    simp +decide [keyword, skipBlanks_cons, Except.toOption]
  simp +decide [pathTest, hread, skipBlanks_cons, hkeyword, m.skipBlanks_render, hnode]

private theorem outcome_pathTest_comparison (h : ReadsInner selector test n) (op : Comparison)
    {l r : Selector} (hl : l.WellFormed Literal.Legible) (hlsize : l.size ≤ n)
    (hr : r.WellFormed Literal.Legible) (hrsize : r.size ≤ n)
    (hliteral : r.opensWithLiteral → r.isLiteral) {k : List Char} (hk : EndsTest k) :
    outcome (pathTest v (selectorLevel v selector test))
      (l.render.toList ++ ' ' :: (op.symbol.toList ++ ' ' :: (r.render.toList ++ k))) =
      some (.comparison op l.reread r.reread, Text.skipBlanks k) := by
  have hends : Ends ['[', '/', '&', '|']
      (' ' :: (op.symbol.toList ++ ' ' :: (r.render.toList ++ k))) := by
    cases op <;> simp +decide [Ends, skipBlanks_cons, Comparison.symbol]
  have hread := outcome_selectorLevel v h hl hlsize hends
  have hblank : Text.skipBlanks (' ' :: (op.symbol.toList ++ ' ' :: (r.render.toList ++ k))) =
      op.symbol.toList ++ ' ' :: (r.render.toList ++ k) := by
    cases op <;> simp +decide [skipBlanks_cons, Comparison.symbol]
  have hkeyword : outcome (keyword "is") (op.symbol.toList ++ ' ' :: (r.render.toList ++ k)) =
      none := by
    cases op <;> simp +decide [keyword, skipBlanks_cons, Comparison.symbol]
  have hoperator := outcome_comparisonOperator op (r.render.toList ++ k)
  rw [(r.opens hr k).skipBlanks] at hoperator
  have hoperand := outcome_operand v h hr hliteral hrsize hk
  rw [hblank] at hread
  simp [pathTest, hread, hkeyword, hoperator, hoperand]

private theorem atom_refuses_connected (h : ReadsInner selector test n) {l : Test}
    (hl : l.WellFormed Literal.Legible) (hsize : l.size < n) {word : List Char}
    {join : Test → Test → Test} (hword : Connects word join) (k : List Char) :
    outcome (atom v selector) ('(' :: (l.render.toList ++ ' ' :: (word ++ ' ' :: k))) = none := by
  have hopen := h.open_before_word hl hsize hword k
  have hgrouped : outcome (grouped selector)
      ('(' :: (l.render.toList ++ ' ' :: (word ++ ' ' :: k))) = none := by
    cases hread : outcome selector (l.render.toList ++ ' ' :: (word ++ ' ' :: k)) with
    | none => simp [grouped, l.skipBlanks_render hl, hread]
    | some x => simp [grouped, l.skipBlanks_render hl, hread, hopen _ _ hread]
  have hliteral := literal_refuses v (c := '(')
    (l.render.toList ++ ' ' :: (word ++ ' ' :: k)) (by decide)
  simp +decide [atom, skipBlanks_cons, functionCall, reverseProperty, hgrouped, hliteral, iri,
    bracketedIri, compactName]

private theorem outcome_primaryTest (h : ReadsInner selector test n) {t : Test}
    (ht : t.WellFormed Literal.Legible) (hnot : ∀ u, t ≠ .not u) (hsize : t.size ≤ n)
    {k : List Char} (hk : EndsTest k) :
    outcome (primaryTest v (selectorLevel v selector test) test) (t.render.toList ++ k) =
      some (t.reread, Text.skipBlanks k) := by
  have hconnected : ∀ {l r : Test} {word join}, Connects word join →
      l.WellFormed Literal.Legible → r.WellFormed Literal.Legible → l.size < n ∧ r.size < n →
      outcome (primaryTest v (selectorLevel v selector test) test)
        ('(' :: (l.render.toList ++ ' ' :: (word ++ ' ' :: (r.render.toList ++ ')' :: k)))) =
        some (join l.reread r.reread, Text.skipBlanks k) := by
    intro l r word join hword hl hr hn
    have hatom := atom_refuses_connected v h hl hn.1 hword (r.render.toList ++ ')' :: k)
    have hread := h.connected hl hr hn.1 hn.2 hword k
    rw [(Opens.mark (by decide) _).outcome_primaryTest v]
    simp +decide [pathTest, selectorLevel_refuses v hatom, l.skipBlanks_render hl, hread,
      skipBlanks_cons]
  cases t with
  | isA type =>
    obtain ⟨m, rfl, hm⟩ := ht
    have hread := outcome_node v hm hk.ends.1
    simp +decide [Test.render, Selector.render, primaryTest, typeTest, skipBlanks_cons,
      m.skipBlanks_render, hread, Test.reread, Selector.reread]
  | and l r =>
    rw [Test.WellFormed] at ht
    have hparts : l.size < n ∧ r.size < n := by
      simp [Test.size, Test.render] at hsize ⊢
      omega
    simpa [Test.render, Test.reread] using hconnected .and ht.1 ht.2 hparts
  | or l r =>
    rw [Test.WellFormed] at ht
    have hparts : l.size < n ∧ r.size < n := by
      simp [Test.size, Test.render] at hsize ⊢
      omega
    simpa [Test.render, Test.reread] using hconnected .or ht.1 ht.2 hparts
  | not t => exact absurd rfl (hnot t)
  | comparison op l r =>
    rw [Test.WellFormed] at ht
    have hparts : l.size ≤ n ∧ r.size ≤ n := by
      simp [Test.size, Selector.size, Test.render] at hsize ⊢
      omega
    have hopens := l.opens ht.1 (' ' :: (op.symbol.toList ++ ' ' :: (r.render.toList ++ k)))
    have hread := outcome_pathTest_comparison v h op ht.1 hparts.1 ht.2.1 hparts.2 ht.2.2 hk
    have hprimary := hopens.outcome_primaryTest v (selectorLevel v selector test) test
    rw [hread] at hprimary
    simpa [Test.render, Test.reread, skipBlanks_skipBlanks] using hprimary
  | pathEquality l r =>
    obtain ⟨hl, m, rfl, hm⟩ := ht
    have hleft : l.size ≤ n := by
      simp [Test.size, Selector.size, Test.render] at hsize ⊢
      omega
    have hopens := l.opens hl (' ' :: 'i' :: 's' :: ' ' :: (m.render.toList ++ k))
    have hread := outcome_pathTest_equality v h hl hleft hm hk
    have hprimary := hopens.outcome_primaryTest v (selectorLevel v selector test) test
    rw [hread] at hprimary
    simpa [Test.render, Selector.render, Test.reread, Selector.reread, skipBlanks_skipBlanks]
      using hprimary
  | pathExists s =>
    rw [Test.WellFormed] at ht
    have hread := outcome_pathTest_exists v h ht hsize hk
    have hprimary := (s.opens ht k).outcome_primaryTest v (selectorLevel v selector test) test
    rw [hread] at hprimary
    simpa [Test.render, Test.reread, skipBlanks_skipBlanks] using hprimary
  | language tag =>
    rw [Test.WellFormed] at ht
    have hread : outcome languageTag (tag.toList ++ k) = some (tag, k) :=
      outcome_word ht.1 ht.2 (isTagChar_of_endsStep hk.ends.1)
    simp +decide [Test.render, primaryTest, typeTest, languageTest, skipBlanks_cons, hread,
      Test.reread]
  | datatype d =>
    rw [Test.WellFormed] at ht
    have hread := outcome_iri v ht k
    simp +decide [Test.render, primaryTest, typeTest, languageTest, datatypeTest, skipBlanks_cons,
      hread, Test.reread]

/-! ## Negations -/

/-- A test behind negations, which are read one by one. -/
inductive Negates (primary : Parser Test) : List Char → Test → List Char → Prop
  | start {s k : List Char} {t : Test} (stop : outcome negation s = none)
    (h : outcome primary s = some (t, k)) : Negates primary s t k
  | step {s s' k : List Char} {t : Test} (h : outcome negation s = some ((), s'))
    (shorter : s'.length < s.length) (after : Negates primary s' t k) :
    Negates primary s (.not t) k

private theorem foldl_not (us : List Unit) (t : Test) :
    us.foldl (fun t _ => Test.not t) (.not t) = .not (us.foldl (fun t _ => Test.not t) t) := by
  induction us generalizing t with
  | nil => rfl
  | cons u us ih => exact ih (.not t)

private theorem Negates.outcome {s k : List Char} {t : Test}
    (h : Negates (primaryTest v selector test) s t k) :
    outcome (unaryTest v selector test) s = some (t, k) := by
  have hchain : ∃ us s' inner, Chain negation s us s' ∧ Parser.outcome negation s' = none ∧
      us.length ≤ s.length ∧
      Parser.outcome (primaryTest v selector test) s' = some (inner, k) ∧
      us.foldl (fun t _ => Test.not t) inner = t := by
    induction h with
    | start stop h => exact ⟨[], _, _, .nil _, stop, by simp, h, rfl⟩
    | step h shorter after ih =>
      obtain ⟨us, s', inner, hrounds, hstop, hlength, hread, rfl⟩ := ih
      refine ⟨() :: us, s', inner, .cons h hrounds, hstop, ?_, hread, foldl_not us inner⟩
      rw [List.length_cons]
      omega
  obtain ⟨us, s', inner, hrounds, hstop, hlength, hread, rfl⟩ := hchain
  have hmany := hrounds.outcome_many hstop hlength
  unfold negation at hmany
  simp [unaryTest, hmany, hread]

private theorem negation_refuses {ok : Literal → Prop} {t : Test} (ht : t.WellFormed ok)
    (hnot : ∀ u, t ≠ .not u) (k : List Char) :
    outcome negation (t.render.toList ++ k) = none := by
  cases t with
  | isA type => simp +decide [Test.render, negation, keyword, skipBlanks_cons, Except.toOption]
  | not t => exact absurd rfl (hnot t)
  | comparison op l r =>
    rw [Test.WellFormed] at ht
    simpa [Test.render] using
      (l.opens ht.1 (' ' :: (op.symbol.toList ++ ' ' :: (r.render.toList ++ k)))).negation_refuses
  | pathEquality l r =>
    rw [Test.WellFormed] at ht
    simpa [Test.render] using
      (l.opens ht.1 (' ' :: 'i' :: 's' :: ' ' :: (r.render.toList ++ k))).negation_refuses
  | pathExists s =>
    rw [Test.WellFormed] at ht
    simpa [Test.render] using (s.opens ht k).negation_refuses
  | _ => simp +decide [Test.render, negation, keyword, skipBlanks_cons]

private theorem negates_render (h : ReadsInner selector test n) {t : Test}
    (ht : t.WellFormed Literal.Legible) (hsize : t.size ≤ n) {k : List Char} (hk : EndsTest k) :
    Negates (primaryTest v (selectorLevel v selector test) test) (t.render.toList ++ k) t.reread
      (Text.skipBlanks k) := by
  cases t with
  | not t =>
    rw [Test.WellFormed] at ht
    have hinner : t.size ≤ n := by
      simp [Test.size, Test.render] at hsize ⊢
      omega
    have hnegation : outcome negation ((Test.not t).render.toList ++ k) =
        some ((), t.render.toList ++ k) := by
      simp +decide [Test.render, negation, keyword, skipBlanks_cons, Except.toOption,
        t.skipBlanks_render ht]
    rw [Test.reread]
    exact .step hnegation (by simp [Test.render]; omega) (negates_render h ht hinner hk)
  | _ =>
    exact .start (negation_refuses ht (by simp) k) (outcome_primaryTest v h ht (by simp) hsize hk)

private theorem outcome_unaryTest (h : ReadsInner selector test n) {t : Test}
    (ht : t.WellFormed Literal.Legible) (hsize : t.size ≤ n) {k : List Char} (hk : EndsTest k) :
    outcome (unaryTest v (selectorLevel v selector test) test) (t.render.toList ++ k) =
      some (t.reread, Text.skipBlanks k) := (negates_render v h ht hsize hk).outcome

/-! ## Levels of nesting -/

private theorem outcome_testLevel (h : ReadsInner selector test n) {t : Test}
    (ht : t.WellFormed Literal.Legible) (hsize : t.size ≤ n) (k : List Char) :
    outcome (testLevel v (selectorLevel v selector test) test) (t.render.toList ++ ']' :: k) =
      some (t.reread, ']' :: k) := by
  have hread := outcome_unaryTest v h ht hsize (.bracket (.inl rfl) k)
  have hblank : Text.skipBlanks (']' :: k) = ']' :: k := by simp +decide [skipBlanks_cons]
  rw [hblank] at hread
  refine outcome_leftAssoc_single (outcome_leftAssoc_single hread ?_) ?_ <;>
    simp +decide [hblank, keyword]

private theorem outcome_testLevel_connected (h : ReadsInner selector test n) {l r : Test}
    (hl : l.WellFormed Literal.Legible) (hr : r.WellFormed Literal.Legible) (hlsize : l.size ≤ n)
    (hrsize : r.size ≤ n) {word : List Char} {join : Test → Test → Test}
    (hword : Connects word join) (k : List Char) :
    outcome (testLevel v (selectorLevel v selector test) test)
      (l.render.toList ++ ' ' :: (word ++ ' ' :: (r.render.toList ++ ')' :: k))) =
      some (join l.reread r.reread, ')' :: k) := by
  have hleft := outcome_unaryTest v h hl hlsize (.word hword (r.render.toList ++ ')' :: k))
  have hread := outcome_unaryTest v h hr hrsize (.bracket (.inr rfl) k)
  have hblank : Text.skipBlanks (')' :: k) = ')' :: k := skipBlanks_bracket (.inl rfl) k
  have hright := r.skipBlanks_render hr (')' :: k)
  rw [hblank] at hread
  cases hword with
  | and =>
    refine outcome_leftAssoc_single (outcome_leftAssoc_pair hleft ?_ hread ?_ ?_) ?_
    · simp +decide [skipBlanks_cons, keyword, Except.toOption, hright]
    · simp +decide [skipBlanks_cons]
      omega
    · simp +decide [hblank, keyword]
    · simp +decide [hblank, keyword]
  | or =>
    refine outcome_leftAssoc_pair (outcome_leftAssoc_single hleft ?_) ?_
      (outcome_leftAssoc_single hread ?_) ?_ ?_
    · simp +decide [skipBlanks_cons, keyword, Except.toOption]
    · simp +decide [skipBlanks_cons, keyword, Except.toOption, hright]
    · simp +decide [hblank, keyword]
    · simp +decide [skipBlanks_cons]
      omega
    · simp +decide [hblank, keyword]

private theorem selectorLevel_open_before_word (h : ReadsInner selector test n) {t : Test}
    (ht : t.WellFormed Literal.Legible) (hsize : t.size ≤ n) {word : List Char}
    {join : Test → Test → Test} (hword : Connects word join) (k : List Char) (s : Selector)
    (l : List Char)
    (hread : outcome (selectorLevel v selector test)
      (t.render.toList ++ ' ' :: (word ++ ' ' :: k)) = some (s, l)) :
    outcome (char ')') (Text.skipBlanks l) = none := by
  -- the words that start a test, and the parentheses around two of them, start no selector
  have hnone : outcome (atom v selector) (t.render.toList ++ ' ' :: (word ++ ' ' :: k)) = none →
      outcome (char ')') (Text.skipBlanks l) = none := by
    intro hatom
    rw [selectorLevel_refuses v hatom] at hread
    cases hread
  -- in any other test the selector ends before an operator or the word
  have hends : ∀ {s' : Selector} {m}, s'.WellFormed Literal.Legible → s'.size ≤ n →
      t.render.toList ++ ' ' :: (word ++ ' ' :: k) = s'.render.toList ++ m →
      Ends [')', '[', '/', '&', '|'] m → outcome (char ')') (Text.skipBlanks l) = none := by
    intro s' m hs' hsize' htext hm
    rw [htext, outcome_selectorLevel v h hs' hsize' (hm.mono (by simp))] at hread
    cases hread
    rw [skipBlanks_skipBlanks, hm.refuses (by simp)]
  cases t with
  | isA _ | not _ | language _ | datatype _ =>
    apply hnone
    simp +decide [Test.render, atom, skipBlanks_cons, functionCall, reverseProperty, grouped,
      literal_refuses, iri, bracketedIri, compactName]
  | and l r =>
    rw [Test.WellFormed] at ht
    apply hnone
    have hleft : l.size < n := by
      simp [Test.size, Test.render] at hsize ⊢
      omega
    simpa [Test.render] using atom_refuses_connected v h ht.1 hleft .and
      (r.render.toList ++ ')' :: ' ' :: (word ++ ' ' :: k))
  | or l r =>
    rw [Test.WellFormed] at ht
    apply hnone
    have hleft : l.size < n := by
      simp [Test.size, Test.render] at hsize ⊢
      omega
    simpa [Test.render] using atom_refuses_connected v h ht.1 hleft .or
      (r.render.toList ++ ')' :: ' ' :: (word ++ ' ' :: k))
  | comparison op l r =>
    rw [Test.WellFormed] at ht
    have hleft : l.size ≤ n := by
      simp [Test.size, Selector.size, Test.render] at hsize ⊢
      omega
    apply hends (m := ' ' :: (op.symbol.toList ++ ' ' :: (r.render.toList ++ ' ' ::
      (word ++ ' ' :: k)))) ht.1 hleft
    · simp [Test.render]
    · cases op <;> simp +decide [Ends, skipBlanks_cons, Comparison.symbol]
  | pathEquality l r =>
    rw [Test.WellFormed] at ht
    have hleft : l.size ≤ n := by
      simp [Test.size, Selector.size, Test.render] at hsize ⊢
      omega
    apply hends (m := ' ' :: 'i' :: 's' :: ' ' :: (r.render.toList ++ ' ' ::
      (word ++ ' ' :: k))) ht.1 hleft
    · simp [Test.render]
    · simp +decide [Ends, skipBlanks_cons]
  | pathExists s =>
    rw [Test.WellFormed] at ht
    apply hends ht hsize
    · rw [Test.render]
    · cases hword <;> simp +decide [Ends, skipBlanks_cons]

private theorem ReadsInner.next (h : ReadsInner selector test n) :
    ReadsInner (selectorLevel v selector test)
      (testLevel v (selectorLevel v selector test) test) (n + 1) where
  single hs hsize _ hc k := by
    have hread := outcome_selectorLevel v h hs (Nat.le_of_lt_succ hsize)
      (ends_bracket hc (by rcases hc with rfl | rfl <;> decide) k)
    rwa [skipBlanks_bracket hc] at hread
  joined hl hr hlsize hrsize _ _ hjoins k :=
    outcome_selectorLevel_joined v h hl hr (Nat.le_of_lt_succ hlsize) (Nat.le_of_lt_succ hrsize)
      hjoins k
  refuses k := by
    apply selectorLevel_refuses
    have hliteral := literal_refuses v (c := ')') k (by decide)
    simp +decide [atom, skipBlanks_cons, functionCall, reverseProperty, grouped, hliteral, iri,
      bracketedIri, compactName]
  condition ht hsize k := outcome_testLevel v h ht (Nat.le_of_lt_succ hsize) k
  connected hl hr hlsize hrsize _ _ hword k :=
    outcome_testLevel_connected v h hl hr (Nat.le_of_lt_succ hlsize) (Nat.le_of_lt_succ hrsize)
      hword k
  open_before_word ht hsize _ _ hword k :=
    selectorLevel_open_before_word v h ht (Nat.le_of_lt_succ hsize) hword k

theorem readsInner (n : Nat) : ReadsInner (selectorAt v n) (testAt v n) n := by
  induction n with
  | zero =>
    constructor
    case refuses => exact fun k => rfl
    all_goals intros; omega
  | succ n ih => exact ih.next v

end Parser

end GraphPath
