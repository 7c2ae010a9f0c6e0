import GraphPath.Path.Printer
import GraphPath.Proofs.Accepted

/-!
# Printed words are read back

The words of a printed path expression, each followed by a character that ends it, are read back
as they were printed, and every other alternative of the grammar refuses them.
-/

namespace GraphPath

/-- The literal is printed without escapes, which are not read. -/
def Literal.Unescaped (l : Literal) : Prop :=
  ∀ c ∈ l.value.toList, c ≠ '"' ∧ c ≠ '\\' ∧ c ≠ '\n' ∧ c ≠ '\r' ∧ c ≠ '\t'

instance (l : Literal) : Decidable l.Unescaped :=
  List.decidableBAll _ l.value.toList

/-- The literals that are read back as they are printed. -/
structure Literal.Legible (l : Literal) : Prop extends l.Canonical where
  unescaped : l.Unescaped

theorem Literal.Unescaped.flatMap_escapeChar {l : Literal} (h : l.Unescaped) :
    l.value.toList.flatMap escapeChar = l.value.toList := by
  have hplain : l.value.toList.flatMap escapeChar = l.value.toList.flatMap fun c => [c] := by
    apply List.flatMap_congr
    intro c hc
    obtain ⟨hquote, hslash, hline, hreturn, htab⟩ := h c hc
    simp [escapeChar, hquote, hslash, hline, hreturn, htab]
  rw [hplain, List.flatMap_singleton']

namespace Parser

/-- The characters that stand after a step of a printed path expression. -/
def endsStep (c : Char) : Bool :=
  c = ' ' || c = ')' || c = ']' || c = ',' || c = '/' || c = '['

/-- The text is empty or starts with a character that ends a step. -/
def EndsStep (k : List Char) : Prop := ∀ c ∈ k.head?, endsStep c = true

@[simp]
theorem endsStep_nil : EndsStep [] := by simp [EndsStep]

@[simp]
theorem endsStep_cons (c : Char) (k : List Char) : EndsStep (c :: k) ↔ endsStep c = true := by
  simp [EndsStep]

private theorem EndsStep.not_class {k : List Char} (hk : EndsStep k) {p : Char → Bool}
    (hp : ([' ', ')', ']', ',', '/', '['].all fun c => !p c) = true) :
    ∀ c ∈ k.head?, p c = false := by
  intro c hc
  have hends := hk c hc
  have hmem : c ∈ [' ', ')', ']', ',', '/', '['] := by simpa [endsStep, or_assoc] using hends
  simpa using List.all_eq_true.1 hp c hmem

private theorem EndsStep.head_ne {c : Char} {k : List Char} (hk : EndsStep (c :: k)) {d : Char}
    (hd : endsStep d = false) : c ≠ d := by
  rintro rfl
  rw [endsStep_cons, hd] at hk
  cases hk

theorem skipBlanks_cons (c : Char) (s : List Char) :
    Text.skipBlanks (c :: s) = if Text.isBlank c then Text.skipBlanks s else c :: s := by
  simp only [Text.skipBlanks, List.dropWhile_cons]

theorem skipBlanks_skipBlanks (s : List Char) :
    Text.skipBlanks (Text.skipBlanks s) = Text.skipBlanks s := by
  induction s with
  | nil => rfl
  | cons c s ih =>
    rw [skipBlanks_cons]
    split
    · exact ih
    · next hc => rw [skipBlanks_cons, if_neg hc]

theorem outcome_span1_append {accepts : Char → Bool} {run k : List Char} (hne : run ≠ [])
    (hrun : ∀ c ∈ run, accepts c = true) (hk : ∀ c ∈ k.head?, accepts c = false) :
    outcome (span1 accepts) (run ++ k) = some (run, k) := by
  rw [outcome_span1, Text.takeWhile_append hrun hk, Text.dropWhile_append hrun hk, if_neg hne]

theorem outcome_word {accepts : Char → Bool} {word : String} (hne : word ≠ "")
    (hword : word.toList.all accepts = true) {k : List Char}
    (hk : ∀ c ∈ k.head?, accepts c = false) :
    outcome (lexeme (String.ofList <$> span1 accepts)) (word.toList ++ k) = some (word, k) := by
  rw [List.all_eq_true] at hword
  have hlist : word.toList ≠ [] := by
    intro hnil
    exact hne (String.toList_inj.1 (by simpa using hnil))
  rw [outcome_lexeme, outcome_map, outcome_span1_append hlist hword hk]
  simp

private theorem isBracketChar_of_not_forbidden {c : Char} (h : Iri.isForbidden c = false) :
    isBracketChar c = true := by
  have hblank : c ≠ ' ' := by
    rintro rfl
    simp [Iri.isForbidden] at h
  simp [Iri.isForbidden] at h
  simp [isBracketChar, hblank, h]

theorem outcome_bracketedIri {i : Iri} (hi : i.WellFormed) (k : List Char) :
    outcome bracketedIri (i.render.toList ++ k) = some (i, k) := by
  have hbody : ∀ c ∈ i.text.toList, isBracketChar c = true :=
    fun c hc => isBracketChar_of_not_forbidden (hi.not_forbidden c hc)
  have hclose : ∀ c ∈ ('>' :: k).head?, isBracketChar c = false := by
    intro c hc
    cases hc
    decide
  have hcheck : checkIri i.text = .ok i := by
    rw [checkIri, show Iri.parse i.text = .ok i from hi]
    rfl
  have hne : i.text.toList ≠ [] := by
    intro hnil
    have hempty : i.text = "" := String.toList_inj.1 (by simpa using hnil)
    unfold Iri.WellFormed at hi
    simp [hempty, Iri.parse] at hi
  have hspan := outcome_span1_append hne hbody hclose
  rw [hi.toList_render]
  simp [bracketedIri, hspan, hcheck, Except.toOption, -outcome_span1]

theorem outcome_iri (v : Vocabulary) {i : Iri} (hi : i.WellFormed) (k : List Char) :
    outcome (iri v) (i.render.toList ++ k) = some (i, k) := by
  rw [iri, outcome_either, outcome_bracketedIri hi, Option.some_or]

theorem outcome_quoted {body : List Char} (hbody : '"' ∉ body) (k : List Char) :
    outcome quoted ('"' :: (body ++ '"' :: k)) = some (String.ofList body, k) := by
  have haccepted : ∀ c ∈ body, (!decide (c = '"')) = true := by
    intro c hc
    simpa using ne_of_mem_of_not_mem hc hbody
  have hclose : ∀ c ∈ ('"' :: k).head?, (!decide (c = '"')) = false := by simp
  simp [quoted, singleQuoted, doubleQuoted, quotedBy, Text.takeWhile_append haccepted hclose,
    Text.dropWhile_append haccepted hclose]

private theorem outcome_optional_suffix (v : Vocabulary) (value : String) {k : List Char}
    (hk : EndsStep k) :
    outcome (optional (either
      (do
        char '@'
        let tag ← languageTag
        return Literal.tagged value tag)
      (do
        chars ['^', '^']
        let datatype ← iri v
        return Literal.typed value datatype))) k = some (none, k) := by
  cases k with
  | nil => simp
  | cons c k =>
    have hat : c ≠ '@' := hk.head_ne rfl
    have hcaret : c ≠ '^' := hk.head_ne rfl
    simp [hat, hcaret]

theorem isTagChar_of_endsStep {k : List Char} (hk : EndsStep k) :
    ∀ c ∈ k.head?, isTagChar c = false := hk.not_class (by decide)

theorem outcome_quotedBody (v : Vocabulary) {l : Literal} (hl : l.Canonical) {body : List Char}
    (hbody : '"' ∉ body) {k : List Char} (hk : EndsStep k) :
    outcome (quotedLiteral v) ('"' :: (body ++ '"' :: (l.suffix ++ k))) =
      some ({ l with value := String.ofList body }, k) := by
  simp only [quotedLiteral, outcome_bind, outcome_quoted hbody, Option.bind_some]
  obtain ⟨value, language, datatype⟩ := l
  rcases hl.forms with ⟨hlang, htype⟩ | ⟨tag, hlang, htype⟩ | ⟨i, hlang, htype⟩ <;>
    dsimp only at hlang htype <;> subst hlang <;> subst htype
  · simp only [Literal.suffix, List.nil_append, outcome_optional_suffix v _ hk]
    rfl
  · have htag := hl.language tag rfl
    have hread : outcome languageTag (tag.toList ++ k) = some (tag, k) :=
      outcome_word htag.1 htag.2 (isTagChar_of_endsStep hk)
    simp [Literal.suffix, hread, Literal.tagged, hl.lower tag rfl]
  · have hread := outcome_iri v (hl.datatype i rfl) k
    have hne : i ≠ Iri.xsdString := by
      intro heq
      exact hl.typed (by rw [heq])
    simp [Literal.suffix, hread, Literal.typed, hne]

private theorem outcome_quotedLiteral (v : Vocabulary) {l : Literal} (hl : l.Legible)
    {k : List Char} (hk : EndsStep k) :
    outcome (quotedLiteral v) (l.render.toList ++ k) = some (l, k) := by
  have hquote : '"' ∉ l.value.toList := fun hmem => (hl.unescaped _ hmem).1 rfl
  have hread := outcome_quotedBody v hl.toCanonical hquote hk
  rw [Literal.toList_render, hl.unescaped.flatMap_escapeChar]
  simpa using hread

theorem outcome_literal (v : Vocabulary) {l : Literal} (hl : l.Legible) {k : List Char}
    (hk : EndsStep k) : outcome (literal v) (l.render.toList ++ k) = some (l, k) := by
  rw [literal, outcome_either, outcome_quotedLiteral v hl hk, Option.some_or]

theorem literal_refuses (v : Vocabulary) {c : Char} (s : List Char)
    (hc : c ≠ '"' ∧ c ≠ '\'' ∧ c ≠ '-' ∧ isDigit c = false) :
    outcome (literal v) (c :: s) = none := by
  simp [literal, quotedLiteral, quoted, singleQuoted, doubleQuoted, quotedBy, numericLiteral, hc]

theorem outcome_node (v : Vocabulary) {n : Node} (hn : n.WellFormed Literal.Legible) {k : List Char}
    (hk : EndsStep k) : outcome (node v) (n.render.toList ++ k) = some (n, k) := by
  cases n with
  | iri i =>
    have hlead : i.render.toList ++ k = '<' :: (i.text.toList ++ '>' :: k) := by
      simp [hn.toList_render]
    have hrefuses : outcome (literal v) (i.render.toList ++ k) = none := by
      rw [hlead]
      exact literal_refuses v _ (by decide)
    have hread := outcome_iri v hn k
    simp [node, Node.render, hrefuses, hread]
  | literal l =>
    have hread := outcome_literal v hn hk
    simp [node, Node.render, hread]

private theorem isDigit_eq (c : Char) : GraphPath.isDigit c = c.isDigit := by
  simp [GraphPath.isDigit, Char.isDigit, Char.le_def]

private theorem outcome_integer {n : Nat} (hn : n < wordLimit) {k : List Char}
    (hk : ∀ c ∈ k.head?, isDigit c = false) :
    outcome integer (Nat.toDigits 10 n ++ k) = some (n, k) := by
  have hdigits : ∀ c ∈ Nat.toDigits 10 n, isDigit c = true := by
    intro c hc
    rw [isDigit_eq]
    exact Nat.isDigit_of_mem_toDigits (by decide) (by decide) hc
  have hvalue : digitsValue (Nat.toDigits 10 n) = n := Nat.ofDigitChars_ten_toDigits
  have hne : Nat.toDigits 10 n ≠ [] := Nat.toDigits_ne_nil
  have hspan := outcome_span1_append hne hdigits hk
  simp [integer, hspan, hvalue, hn, Except.toOption, -outcome_span1]

private theorem isBlank_of_isDigit {c : Char} (h : isDigit c = true) : Text.isBlank c = false := by
  simp [isDigit_eq, Char.isDigit, UInt32.le_iff_toNat_le] at h
  simp [Text.isBlank, Text.blankSpans, Text.inSpans]
  omega

private theorem outcome_padded_integer {n : Nat} (hn : n < wordLimit) {c : Char}
    (hc : isDigit c = false) (hblank : Text.isBlank c = false) (k : List Char) :
    outcome (padded integer) (Nat.toDigits 10 n ++ c :: k) = some (n, c :: k) := by
  have hlead : Text.skipBlanks (Nat.toDigits 10 n ++ c :: k) = Nat.toDigits 10 n ++ c :: k := by
    cases hdigits : Nat.toDigits 10 n with
    | nil => exact absurd hdigits Nat.toDigits_ne_nil
    | cons d digits =>
      have hd : isDigit d = true := by
        rw [isDigit_eq]
        exact Nat.isDigit_of_mem_toDigits (by decide) (by decide) (hdigits ▸ List.mem_cons_self)
      rw [List.cons_append, skipBlanks_cons, isBlank_of_isDigit hd]
      rfl
  rw [outcome_padded, hlead, outcome_integer hn (by simpa using hc)]
  simp [skipBlanks_cons, hblank]

theorem outcome_quantifier {min : Nat} {max : Option Nat} (hmin : min < wordLimit)
    (hmax : ∀ m ∈ max, m < wordLimit) (k : List Char) :
    outcome quantifier ((renderBounds min max).toList ++ k) = some ((min, max), k) := by
  have hread : ∀ l, outcome (padded integer) (Nat.toDigits 10 min ++ ',' :: l) =
      some (min, ',' :: l) := fun l => outcome_padded_integer hmin (by decide) (by decide) l
  unfold renderBounds
  split
  · simp +decide [quantifier]
  · simp +decide [quantifier]
  · have hnone : outcome (padded integer) ('\x7d' :: k) = none := by
      simp +decide [integer, skipBlanks_cons]
    simp [quantifier, hread, hnone, -outcome_padded]
  · next m =>
    have hread' := outcome_padded_integer (hmax m rfl) (c := '\x7d') (by decide) (by decide) k
    simp [quantifier, hread, hread', -outcome_padded]

theorem quantifier_refuses {k : List Char} (hk : EndsStep k) : outcome quantifier k = none := by
  cases k with
  | nil => simp [quantifier]
  | cons c k =>
    have hstar : c ≠ '*' := hk.head_ne rfl
    have hplus : c ≠ '+' := hk.head_ne rfl
    have hbrace : c ≠ '\x7b' := hk.head_ne rfl
    simp [quantifier, hstar, hplus, hbrace]

theorem outcome_comparisonOperator (op : Comparison) (k : List Char) :
    outcome comparisonOperator (op.symbol.toList ++ ' ' :: k) =
      some (op, Text.skipBlanks k) := by
  cases op <;> simp +decide [comparisonOperator, Comparison.symbol, skipBlanks_cons]

end Parser

theorem Iri.skipBlanks_render (i : Iri) (k : List Char) :
    Text.skipBlanks (i.render.toList ++ k) = i.render.toList ++ k := by
  simp +decide [render, Parser.skipBlanks_cons]

theorem Node.skipBlanks_render (n : Node) (k : List Char) :
    Text.skipBlanks (n.render.toList ++ k) = n.render.toList ++ k := by
  cases n with
  | iri i => exact i.skipBlanks_render k
  | literal l => simp +decide [render, Literal.toList_render, Parser.skipBlanks_cons]

end GraphPath
