import GraphPath.Path.Grammar
import GraphPath.Proofs.Outcomes
import GraphPath.Proofs.Spelling

/-!
# What the grammar accepts

Every selector that is read from a text is well formed, whatever the text and the vocabulary: its
IRIs, literals, names and bounds have the form that their words have, and it is nested the way the
levels of the grammar nest.
-/

namespace GraphPath

/-- The literal in the one form that it is read in: the tag in small letters, and no datatype where
it would be that of strings. -/
structure Literal.Canonical (l : Literal) : Prop extends l.WellFormed where
  lower : ∀ tag ∈ l.language, tag.map Char.toLower = tag
  typed : l.datatype ≠ some Iri.xsdString

def Node.WellFormed (ok : Literal → Prop) : Node → Prop
  | .iri i => i.WellFormed
  | .literal l => ok l

namespace Selector

/-- The selectors that are one step of a sequence. -/
def isStep : Selector → Bool
  | .path .. => false
  | .union .. => false
  | .intersection .. => false
  | _ => true

def isLiteral : Selector → Bool
  | .constant (.literal _) => true
  | _ => false

/-- The selectors whose text starts with a literal. -/
def opensWithLiteral : Selector → Bool
  | .path l _ => l.opensWithLiteral
  | .testing s _ => s.opensWithLiteral
  | .constant (.literal _) => true
  | _ => false

end Selector

mutual

/-- What the grammar makes of the words of a selector, with literals of a kind. A resource is not a
constant here, since as a selector it stands for the property. -/
def Selector.WellFormed (ok : Literal → Prop) : Selector → Prop
  | .property p => p.WellFormed
  | .reverse p => p.WellFormed
  | .path l r => l.WellFormed ok ∧ r.WellFormed ok ∧ r.isStep
  | .union l r => l.WellFormed ok ∧ r.WellFormed ok
  | .intersection l r => l.WellFormed ok ∧ r.WellFormed ok
  | .recursive inner min max =>
    inner.WellFormed ok ∧ min < Parser.wordLimit ∧ ∀ m ∈ max, min ≤ m ∧ m < Parser.wordLimit
  | .grouping inner => inner.WellFormed ok
  | .testing s t => s.WellFormed ok ∧ t.WellFormed ok ∧ s.isStep
  | .function name args =>
    (name ≠ "" ∧ name.toList.all Parser.isIdentifierChar = true) ∧ Selector.AllWellFormed ok args
  | .self => True
  | .wildcard => True
  | .constant n => ∃ l, n = .literal l ∧ ok l

def Selector.AllWellFormed (ok : Literal → Prop) : List Selector → Prop
  | [] => True
  | s :: rest => s.WellFormed ok ∧ Selector.AllWellFormed ok rest

/-- What the grammar makes of the words of a test. A literal on the right of a comparison ends
it. -/
def Test.WellFormed (ok : Literal → Prop) : Test → Prop
  | .isA type => ∃ n, type = .constant n ∧ n.WellFormed ok
  | .and l r => l.WellFormed ok ∧ r.WellFormed ok
  | .or l r => l.WellFormed ok ∧ r.WellFormed ok
  | .not t => t.WellFormed ok
  | .comparison _ l r =>
    l.WellFormed ok ∧ r.WellFormed ok ∧ (r.opensWithLiteral → r.isLiteral)
  | .pathEquality l r => l.WellFormed ok ∧ ∃ n, r = .constant n ∧ n.WellFormed ok
  | .pathExists s => s.WellFormed ok
  | .language tag => tag ≠ "" ∧ tag.toList.all Parser.isTagChar = true
  | .datatype d => d.WellFormed

end

theorem Selector.allWellFormed_iff {ok : Literal → Prop} {args : List Selector} :
    Selector.AllWellFormed ok args ↔ ∀ s ∈ args, s.WellFormed ok := by
  induction args with
  | nil => simp [Selector.AllWellFormed]
  | cons s rest ih => simp [Selector.AllWellFormed, ih]

theorem Iri.text_of_parse {text : String} {i : Iri} (h : Iri.parse text = .ok i) :
    i.text = text := by
  unfold Iri.parse at h
  split at h
  · cases h
  · split at h
    · cases h
    · cases h
      rfl

theorem Iri.wellFormed_of_parse {text : String} {i : Iri} (h : Iri.parse text = .ok i) :
    i.WellFormed := by
  rw [Iri.WellFormed, Iri.text_of_parse h, h]

namespace Parser

variable {α β : Type}

/-- Every value that the parser reads has the property. -/
def Yields (p : Parser α) (P : α → Prop) : Prop :=
  ∀ ⦃s : List Char⦄ ⦃a : α⦄ ⦃k : List Char⦄, outcome p s = some (a, k) → P a

variable {P : α → Prop} {Q : β → Prop}

theorem yields_true (p : Parser α) : p.Yields fun _ => True := fun _ _ _ _ => trivial

private theorem Yields.mono {P' : α → Prop} {p : Parser α} (hp : p.Yields P) (h : ∀ a, P a → P' a) :
    p.Yields P' := fun _ _ _ ha => h _ (hp ha)

theorem yields_pure {a : α} (h : P a) : (pure a : Parser α).Yields P := by
  intro s b k hb
  cases hb
  exact h

theorem Yields.bind {p : Parser α} {f : α → Parser β} (hp : p.Yields P)
    (hf : ∀ a, P a → (f a).Yields Q) : (p >>= f).Yields Q := by
  intro s b k hb
  rw [outcome_bind, Option.bind_eq_some_iff] at hb
  obtain ⟨x, hx, hfx⟩ := hb
  exact hf x.1 (hp hx) hfx

theorem Yields.map {p : Parser α} {f : α → β} (hp : p.Yields P) (hf : ∀ a, P a → Q (f a)) :
    (f <$> p).Yields Q := by
  rw [map_eq_pure_bind]
  exact hp.bind fun a ha => yields_pure (hf a ha)

theorem Yields.either {p q : Parser α} (hp : p.Yields P) (hq : q.Yields P) :
    (either p q).Yields P := by
  intro s a k h
  rw [outcome_either, Option.or_eq_some_iff] at h
  rcases h with h | ⟨-, h⟩
  · exact hp h
  · exact hq h

private theorem yields_firstOf {ps : List (Parser α)} (h : ∀ p ∈ ps, p.Yields P) :
    (firstOf ps).Yields P := by
  induction ps with
  | nil =>
    intro s a k ha
    cases ha
  | cons p ps ih =>
    rw [List.forall_mem_cons] at h
    exact h.1.either (ih h.2)

theorem Yields.optional {p : Parser α} (hp : p.Yields P) :
    (optional p).Yields fun o => ∀ a ∈ o, P a := by
  apply Yields.either
  · exact hp.map fun a ha => by simpa using ha
  · exact yields_pure (by simp)

theorem Yields.padded {p : Parser α} (hp : p.Yields P) : (padded p).Yields P := by
  intro s a k h
  rw [outcome_padded, Option.map_eq_some_iff] at h
  obtain ⟨x, hx, heq⟩ := h
  cases heq
  exact hp hx

private theorem Yields.lexeme {p : Parser α} (hp : p.Yields P) : (lexeme p).Yields P := hp

private theorem Yields.checked {p : Parser α} {f : α → Except Reason β} (hp : p.Yields P)
    (hf : ∀ a b, P a → f a = .ok b → Q b) : (checked f p).Yields Q := by
  intro s b k h
  rw [outcome_checked, Option.bind_eq_some_iff] at h
  obtain ⟨x, hx, hfx⟩ := h
  obtain ⟨b', hb', heq⟩ := Option.map_eq_some_iff.1 hfx
  cases heq
  cases hvalue : f x.1 with
  | error e =>
    rw [hvalue] at hb'
    cases hb'
  | ok b'' =>
    rw [hvalue] at hb'
    cases hb'
    exact hf x.1 b (hp hx) hvalue

private theorem Chain.forall_mem {p : Parser α} (hp : p.Yields P) {s k : List Char} {as : List α}
    (h : Chain p s as k) : ∀ a ∈ as, P a := by
  induction h with
  | nil k => simp
  | cons head tail ih => exact List.forall_mem_cons.2 ⟨hp head, ih⟩

private theorem Yields.many {p : Parser α} (hp : p.Yields P) :
    (many p).Yields fun as => ∀ a ∈ as, P a := by
  intro s as k h
  exact (chain_of_many h).forall_mem hp

private theorem Yields.separated {separator : Parser Unit} {p : Parser α} (hp : p.Yields P) :
    (separated separator p).Yields fun as => ∀ a ∈ as, P a := by
  apply Yields.either
  · refine hp.bind fun first hfirst => ?_
    refine ((yields_true separator).bind fun _ _ => hp).many.bind fun rest hrest => ?_
    exact yields_pure (List.forall_mem_cons.2 ⟨hfirst, hrest⟩)
  · exact yields_pure (by simp)

private theorem yields_span1 (accepts : Char → Bool) :
    (span1 accepts).Yields fun run => run ≠ [] ∧ run.all accepts = true := by
  intro s run k h
  rw [outcome_span1] at h
  split at h
  · cases h
  · next hne =>
    cases h
    exact ⟨hne, List.all_takeWhile⟩

/-! ## Words -/

private theorem wellFormed_of_checkIri {text : String} {i : Iri} (h : checkIri text = .ok i) :
    i.WellFormed := by
  unfold checkIri at h
  cases hparse : Iri.parse text with
  | error e =>
    rw [hparse] at h
    cases h
  | ok j =>
    rw [hparse] at h
    obtain rfl : j = i := Except.ok.inj h
    exact Iri.wellFormed_of_parse hparse

theorem yields_iri (v : Vocabulary) : (iri v).Yields Iri.WellFormed := by
  apply Yields.either
  · exact (yields_true _).checked fun text i _ h => wellFormed_of_checkIri h
  · refine (yields_true _).checked ?_
    rintro ⟨short, name⟩ i - h
    change expandName v short name = .ok i at h
    unfold expandName at h
    split at h
    · cases h
    · exact wellFormed_of_checkIri h

theorem yields_word (accepts : Char → Bool) :
    (lexeme (String.ofList <$> span1 accepts)).Yields fun word =>
      word ≠ "" ∧ word.toList.all accepts = true := by
  refine ((yields_span1 accepts).map ?_).lexeme
  rintro run ⟨hne, hall⟩
  refine ⟨?_, by simpa using hall⟩
  intro hempty
  exact hne (by simpa using congrArg String.toList hempty)

private theorem yields_integer : integer.Yields (· < wordLimit) := by
  refine ((yields_true (span1 isDigit)).checked ?_).lexeme
  intro digits n _ h
  split at h
  · next hlt =>
    cases h
    exact hlt
  · cases h

private theorem isTagChar_toLower {c : Char} (h : isTagChar c = true) :
    isTagChar c.toLower = true ∧ c.toLower.toLower = c.toLower := by
  have hascii : c.toNat < 128 := by
    unfold isTagChar Char.isAlphanum Char.isAlpha Char.isUpper Char.isLower Char.isDigit at h
    simp [UInt32.le_iff_toNat_le] at h
    rcases h with h | rfl
    · omega
    · decide
  have hall : ∀ n : Fin 128, isTagChar (Char.ofNat n) = true →
      isTagChar (Char.ofNat n).toLower = true ∧
        (Char.ofNat n).toLower.toLower = (Char.ofNat n).toLower := by decide
  have hchar := hall ⟨c.toNat, hascii⟩
  simp only [Char.ofNat_toNat] at hchar
  exact hchar h

theorem canonical_plain (value : String) : (Literal.plain value).Canonical := by
  refine ⟨⟨.inl rfl, ?_, ?_⟩, ?_, ?_⟩ <;> simp [Literal.plain]

theorem canonical_tagged (value : String) {tag : String} (hne : tag ≠ "")
    (htag : tag.toList.all isTagChar = true) : (Literal.tagged value tag).Canonical := by
  rw [List.all_eq_true] at htag
  refine ⟨⟨.inr rfl, ?_, by simp [Literal.tagged]⟩, ?_, by simp [Literal.tagged]⟩
  · intro lower hlower
    cases hlower
    refine ⟨?_, ?_⟩
    · intro hempty
      apply hne
      have hlist := congrArg String.toList hempty
      simpa [String.toList_map] using hlist
    · rw [String.toList_map, List.all_map, List.all_eq_true]
      exact fun c hc => (isTagChar_toLower (htag c hc)).1
  · intro lower hlower
    cases hlower
    rw [String.map_map, ← String.toList_inj, String.toList_map, String.toList_map]
    exact List.map_congr_left fun c hc => (isTagChar_toLower (htag c hc)).2

theorem canonical_typed (value : String) {datatype : Iri} (h : datatype.WellFormed) :
    (Literal.typed value datatype).Canonical := by
  unfold Literal.typed
  split
  · exact canonical_plain value
  · next hne => exact ⟨⟨.inl rfl, by simp, by simpa using h⟩, by simp, by simpa using hne⟩

private theorem yields_quotedLiteral (v : Vocabulary) :
    (quotedLiteral v).Yields Literal.Canonical := by
  refine (yields_true quoted).bind fun value _ => ?_
  have hsuffix : (optional (either
      (do
        char '@'
        let tag ← languageTag
        return Literal.tagged value tag)
      (do
        chars ['^', '^']
        let datatype ← iri v
        return Literal.typed value datatype))).Yields fun o => ∀ l ∈ o, l.Canonical := by
    apply Yields.optional
    apply Yields.either
    · refine (yields_true _).bind fun _ _ => ?_
      refine (yields_word isTagChar).bind fun tag htag => ?_
      exact yields_pure (canonical_tagged value htag.1 htag.2)
    · refine (yields_true _).bind fun _ _ => ?_
      exact (yields_iri v).bind fun datatype h => yields_pure (canonical_typed value h)
  refine hsuffix.bind fun literal? hliteral => yields_pure ?_
  cases literal? with
  | none => exact canonical_plain value
  | some l => exact hliteral l rfl

private theorem yields_literal (v : Vocabulary) : (literal v).Yields Literal.Canonical := by
  apply (yields_quotedLiteral v).either
  refine (yields_true _).bind fun sign _ => ?_
  refine (yields_true _).bind fun whole _ => ?_
  refine (yields_true _).bind fun fraction _ => yields_pure ?_
  cases fraction with
  | none => exact canonical_typed _ (by decide +kernel)
  | some digits => exact canonical_typed _ (by decide +kernel)

theorem yields_node (v : Vocabulary) : (node v).Yields (Node.WellFormed Literal.Canonical) := by
  apply Yields.lexeme
  apply Yields.either
  · exact (yields_literal v).map fun l h => h
  · exact (yields_iri v).map fun i h => h

/-! ## Selectors -/

private theorem outcome_leftAssoc {join : α → α → α} {operator : Parser Unit} {operand : Parser α}
    {s k : List Char} {a : α} (h : outcome (leftAssoc join operator operand) s = some (a, k)) :
    ∃ first k' rest, outcome operand s = some (first, k') ∧ a = rest.foldl join first ∧
      Chain (do padded operator; operand) k' rest k := by
  simp only [leftAssoc, outcome_bind, Option.bind_eq_some_iff] at h
  obtain ⟨⟨first, k'⟩, hfirst, ⟨rest, k''⟩, hrest, heq⟩ := h
  cases heq
  exact ⟨first, k', rest, hfirst, rfl, chain_of_many hrest⟩

private theorem Yields.leftAssoc {join : α → α → α} {operator : Parser Unit} {operand : Parser α}
    {P' : α → Prop} (hoperand : operand.Yields P) (hfirst : ∀ a, P a → P' a)
    (hjoin : ∀ a b, P' a → P b → P' (join a b)) : (leftAssoc join operator operand).Yields P' := by
  intro s a k h
  obtain ⟨first, k', rest, hread, rfl, hchain⟩ := outcome_leftAssoc h
  have hrest := hchain.forall_mem ((yields_true _).bind fun _ _ => hoperand)
  have hstart := hfirst first (hoperand hread)
  clear hread hchain h
  induction rest generalizing first with
  | nil => exact hstart
  | cons b rest ih =>
    rw [List.forall_mem_cons] at hrest
    exact ih (join first b) hrest.2 (hjoin first b hstart hrest.1)

private theorem yields_quantifier : quantifier.Yields fun bounds =>
    bounds.1 < wordLimit ∧ ∀ m ∈ bounds.2, m < wordLimit := by
  apply yields_firstOf
  simp only [List.forall_mem_cons, List.not_mem_nil, false_implies, implies_true, and_true]
  refine ⟨?_, ?_, ?_, ?_⟩
  · exact (yields_true _).bind fun _ _ => yields_pure ⟨by decide, by simp⟩
  · exact (yields_true _).bind fun _ _ => yields_pure ⟨by decide, by simp⟩
  · refine (yields_true _).bind fun _ _ => ?_
    refine yields_integer.padded.optional.bind fun min hmin => ?_
    refine (yields_true _).bind fun _ _ => ?_
    refine yields_integer.padded.optional.bind fun max hmax => ?_
    refine (yields_true _).bind fun _ _ => yields_pure ⟨?_, hmax⟩
    cases min with
    | none => exact Nat.two_pow_pos 64
    | some n => exact hmin n rfl
  · refine (yields_true _).bind fun _ _ => ?_
    refine yields_integer.padded.bind fun n hn => ?_
    exact (yields_true _).bind fun _ _ => yields_pure ⟨hn, by simpa using hn⟩

private theorem yields_functionCall {selector : Parser Selector}
    (hselector : selector.Yields (Selector.WellFormed Literal.Canonical)) :
    (functionCall selector).Yields fun s =>
      s.WellFormed Literal.Canonical ∧ s.isStep ∧ s.opensWithLiteral = false := by
  refine (yields_true _).bind fun _ _ => ?_
  refine (yields_word isIdentifierChar).bind fun name hname => ?_
  refine (yields_true _).bind fun _ _ => ?_
  refine hselector.padded.separated.bind fun args hargs => ?_
  refine (yields_true _).bind fun _ _ => yields_pure ⟨⟨hname, ?_⟩, rfl, rfl⟩
  exact Selector.allWellFormed_iff.2 hargs

private theorem yields_grouped {selector : Parser Selector}
    (hselector : selector.Yields (Selector.WellFormed Literal.Canonical)) :
    (grouped selector).Yields fun s =>
      s.WellFormed Literal.Canonical ∧ s.isStep ∧ s.opensWithLiteral = false := by
  have hparts : (do
      char '('
      let inner ← padded selector
      char ')'
      let bounds ← optional quantifier
      return (inner, bounds) : Parser (Selector × Option (Nat × Option Nat))).Yields fun x =>
        x.1.WellFormed Literal.Canonical ∧
          ∀ b ∈ x.2, b.1 < wordLimit ∧ ∀ m ∈ b.2, m < wordLimit := by
    refine (yields_true _).bind fun _ _ => ?_
    refine hselector.padded.bind fun inner hinner => ?_
    refine (yields_true _).bind fun _ _ => ?_
    exact yields_quantifier.optional.bind fun bounds hbounds => yields_pure ⟨hinner, hbounds⟩
  refine hparts.checked ?_
  rintro ⟨inner, bounds⟩ s ⟨hinner, hbounds⟩ h
  unfold closeGroup at h
  split at h
  · next heq =>
    cases heq
    cases h
    exact ⟨hinner, rfl, rfl⟩
  · next heq =>
    cases heq
    cases h
    exact ⟨⟨hinner, (hbounds _ rfl).1, by simp⟩, rfl, rfl⟩
  · next heq =>
    cases heq
    split at h
    · cases h
    · next hle =>
      cases h
      have hbound := hbounds _ rfl
      refine ⟨⟨hinner, hbound.1, ?_⟩, rfl, rfl⟩
      intro m hm
      cases hm
      exact ⟨Nat.le_of_not_lt hle, hbound.2 _ rfl⟩

private theorem yields_atom (v : Vocabulary) {selector : Parser Selector}
    (hselector : selector.Yields (Selector.WellFormed Literal.Canonical)) :
    (atom v selector).Yields fun s => s.WellFormed Literal.Canonical ∧ s.isStep := by
  apply Yields.padded
  apply yields_firstOf
  simp only [List.forall_mem_cons, List.not_mem_nil, false_implies, implies_true, and_true]
  refine ⟨?_, ?_, ?_, ?_, ?_, ?_, ?_⟩
  · exact (yields_functionCall hselector).mono fun s hs => ⟨hs.1, hs.2.1⟩
  · refine (yields_true _).bind fun _ _ => ?_
    exact (yields_iri v).bind fun p hp => yields_pure ⟨hp, rfl⟩
  · exact (yields_grouped hselector).mono fun s hs => ⟨hs.1, hs.2.1⟩
  · exact (yields_true _).bind fun _ _ => yields_pure ⟨trivial, rfl⟩
  · exact (yields_true _).bind fun _ _ => yields_pure ⟨trivial, rfl⟩
  · exact (yields_literal v).map fun l hl => ⟨⟨l, rfl, hl⟩, rfl⟩
  · exact (yields_iri v).map fun p hp => ⟨hp, rfl⟩

private theorem yields_step (v : Vocabulary) {selector : Parser Selector} {test : Parser Test}
    (hselector : selector.Yields (Selector.WellFormed Literal.Canonical))
    (htest : test.Yields (Test.WellFormed Literal.Canonical)) :
    (step v selector test).Yields fun s => s.WellFormed Literal.Canonical ∧ s.isStep := by
  refine (yields_atom v hselector).bind fun first hfirst => ?_
  have hbracketed : (padded do
      char '['
      let t ← padded test
      char ']'
      return t : Parser Test).Yields (Test.WellFormed Literal.Canonical) := by
    apply Yields.padded
    refine (yields_true _).bind fun _ _ => ?_
    refine htest.padded.bind fun t ht => ?_
    exact (yields_true _).bind fun _ _ => yields_pure ht
  refine hbracketed.many.bind fun tests htests => yields_pure ?_
  induction tests generalizing first with
  | nil => exact hfirst
  | cons t tests ih =>
    rw [List.forall_mem_cons] at htests
    exact ih (.testing first t) ⟨⟨hfirst.1, htests.1, hfirst.2⟩, rfl⟩ htests.2

private theorem yields_selectorLevel (v : Vocabulary) {selector : Parser Selector}
    {test : Parser Test} (hselector : selector.Yields (Selector.WellFormed Literal.Canonical))
    (htest : test.Yields (Test.WellFormed Literal.Canonical)) :
    (selectorLevel v selector test).Yields (Selector.WellFormed Literal.Canonical) := by
  have hsequence : (leftAssoc .path (char '/') (step v selector test)).Yields
      (Selector.WellFormed Literal.Canonical) := by
    refine (yields_step v hselector htest).leftAssoc ?_ ?_
    · exact fun s hs => hs.1
    · exact fun l r hl hr => ⟨hl, hr.1, hr.2⟩
  have hintersection : (leftAssoc .intersection (char '&')
      (leftAssoc .path (char '/') (step v selector test))).Yields
      (Selector.WellFormed Literal.Canonical) :=
    hsequence.leftAssoc (fun s hs => hs) fun l r hl hr => ⟨hl, hr⟩
  exact hintersection.leftAssoc (fun s hs => hs) fun l r hl hr => ⟨hl, hr⟩

/-! Where a selector starts with a literal, a literal can be read. -/

/-- The literal parser reads something from the front of the text. -/
def StartsWithLiteral (v : Vocabulary) (s : List Char) : Prop :=
  ∃ l k, outcome (literal v) (Text.skipBlanks s) = some (l, k)

/-- A selector that starts with a literal is only read from a text that does. -/
def RevealsLiterals (v : Vocabulary) (selector : Parser Selector) : Prop :=
  ∀ ⦃s : List Char⦄ ⦃a : Selector⦄ ⦃k : List Char⦄, outcome selector s = some (a, k) →
    a.opensWithLiteral = true → StartsWithLiteral v s

private theorem startsWithLiteral_of_atom {v : Vocabulary} {selector : Parser Selector}
    (hselector : selector.Yields (Selector.WellFormed Literal.Canonical)) {s k : List Char}
    {a : Selector} (h : outcome (atom v selector) s = some (a, k))
    (hopens : a.opensWithLiteral = true) : StartsWithLiteral v s := by
  have hother : ∀ {p : Parser Selector}, p.Yields (fun s => s.opensWithLiteral = false) →
      ∀ {k'}, outcome p (Text.skipBlanks s) ≠ some (a, k') := by
    intro p hp k' hread
    rw [hp hread] at hopens
    cases hopens
  simp only [atom, outcome_padded, Option.map_eq_some_iff, outcome_firstOf_cons,
    outcome_firstOf_nil, Option.or_eq_some_iff] at h
  obtain ⟨⟨b, k'⟩, hread, heq⟩ := h
  obtain ⟨rfl, -⟩ := Prod.mk.inj heq
  rcases hread with h | ⟨-, h | ⟨-, h | ⟨-, h | ⟨-, h | ⟨-, h | ⟨-, h | ⟨-, h⟩⟩⟩⟩⟩⟩⟩
  · exact absurd h (hother ((yields_functionCall hselector).mono fun s hs => hs.2.2))
  · refine absurd h (hother ?_)
    refine (yields_true _).bind fun _ _ => ?_
    exact (yields_true _).bind fun p _ => yields_pure rfl
  · exact absurd h (hother ((yields_grouped hselector).mono fun s hs => hs.2.2))
  · exact absurd h (hother ((yields_true _).bind fun _ _ => yields_pure rfl))
  · exact absurd h (hother ((yields_true _).bind fun _ _ => yields_pure rfl))
  · rw [outcome_map, Option.map_eq_some_iff] at h
    obtain ⟨⟨l, k''⟩, hl, -⟩ := h
    exact ⟨l, k'', hl⟩
  · exact absurd h (hother ((yields_true _).map fun p _ => rfl))
  · cases h

private theorem opensWithLiteral_foldl_testing (first : Selector) (tests : List Test) :
    (tests.foldl .testing first).opensWithLiteral = first.opensWithLiteral := by
  induction tests generalizing first with
  | nil => rfl
  | cons t tests ih => rw [List.foldl_cons, ih, Selector.opensWithLiteral]

private theorem opensWithLiteral_foldl_path (first : Selector) (rest : List Selector) :
    (rest.foldl .path first).opensWithLiteral = first.opensWithLiteral := by
  induction rest generalizing first with
  | nil => rfl
  | cons s rest ih => rw [List.foldl_cons, ih, Selector.opensWithLiteral]

private theorem eq_of_opensWithLiteral_foldl {join : Selector → Selector → Selector}
    (hjoin : ∀ l r, (join l r).opensWithLiteral = false) {first : Selector} {rest : List Selector}
    (h : (rest.foldl join first).opensWithLiteral = true) : rest = [] := by
  cases rest.eq_nil_or_concat with
  | inl hnil => exact hnil
  | inr hconcat =>
    obtain ⟨front, last, rfl⟩ := hconcat
    rw [List.concat_eq_append, List.foldl_append, List.foldl_cons, List.foldl_nil, hjoin] at h
    cases h

private theorem revealsLiterals_selectorLevel (v : Vocabulary) {selector : Parser Selector}
    (test : Parser Test) (hselector : selector.Yields (Selector.WellFormed Literal.Canonical)) :
    RevealsLiterals v (selectorLevel v selector test) := by
  intro s a k h hopens
  obtain ⟨first, k₁, rest, hunion, rfl, -⟩ := outcome_leftAssoc h
  obtain rfl := eq_of_opensWithLiteral_foldl (fun _ _ => rfl) hopens
  rw [List.foldl_nil] at hopens
  obtain ⟨first', k₂, rest, hintersection, rfl, -⟩ := outcome_leftAssoc hunion
  obtain rfl := eq_of_opensWithLiteral_foldl (fun _ _ => rfl) hopens
  rw [List.foldl_nil] at hopens
  obtain ⟨first'', k₃, rest, hpath, rfl, -⟩ := outcome_leftAssoc hintersection
  rw [opensWithLiteral_foldl_path] at hopens
  simp only [step, outcome_bind, Option.bind_eq_some_iff] at hpath
  obtain ⟨⟨base, k₄⟩, hatom, ⟨tests, k₅⟩, -, heq⟩ := hpath
  cases heq
  rw [opensWithLiteral_foldl_testing] at hopens
  exact startsWithLiteral_of_atom hselector hatom hopens

/-! ## Tests -/

private theorem yields_operand {v : Vocabulary} {selector : Parser Selector}
    (hselector : selector.Yields (Selector.WellFormed Literal.Canonical))
    (hstarts : RevealsLiterals v selector) :
    (operand v selector).Yields fun s =>
      s.WellFormed Literal.Canonical ∧ (s.opensWithLiteral → s.isLiteral) := by
  intro s a k h
  simp only [operand, outcome_either, outcome_padded, outcome_map, Option.or_eq_some_iff,
    Option.map_eq_some_iff, Option.map_eq_none_iff] at h
  rcases h with ⟨x, ⟨y, hy, rfl⟩, heq⟩ | ⟨hnone, h⟩
  · cases heq
    exact ⟨⟨y.1, rfl, yields_literal v hy⟩, fun _ => rfl⟩
  · refine ⟨hselector h, fun hopens => ?_⟩
    obtain ⟨l, k', hread⟩ := hstarts h hopens
    rw [hread] at hnone
    cases hnone

private theorem yields_pathTest {v : Vocabulary} {selector : Parser Selector}
    (hselector : selector.Yields (Selector.WellFormed Literal.Canonical))
    (hstarts : RevealsLiterals v selector) :
    (pathTest v selector).Yields (Test.WellFormed Literal.Canonical) := by
  refine hselector.bind fun left hleft => ?_
  have hcondition : (optional (either
      (do
        keyword "is"
        let right ← padded (node v)
        return Test.pathEquality left (.constant right))
      (do
        let op ← comparisonOperator
        let right ← operand v selector
        return Test.comparison op left right))).Yields fun o =>
          ∀ t ∈ o, t.WellFormed Literal.Canonical := by
    apply Yields.optional
    apply Yields.either
    · refine (yields_true _).bind fun _ _ => ?_
      refine (yields_node v).padded.bind fun right hright => yields_pure ?_
      exact ⟨hleft, right, rfl, hright⟩
    · refine (yields_true _).bind fun op _ => ?_
      refine (yields_operand hselector hstarts).bind fun right hright => yields_pure ?_
      exact ⟨hleft, hright.1, hright.2⟩
  refine hcondition.bind fun test? htest => yields_pure ?_
  cases test? with
  | none => exact hleft
  | some t => exact htest t rfl

private theorem yields_primaryTest {v : Vocabulary} {selector : Parser Selector}
    {test : Parser Test} (hselector : selector.Yields (Selector.WellFormed Literal.Canonical))
    (htest : test.Yields (Test.WellFormed Literal.Canonical))
    (hstarts : RevealsLiterals v selector) :
    (primaryTest v selector test).Yields (Test.WellFormed Literal.Canonical) := by
  apply Yields.padded
  apply yields_firstOf
  simp only [List.forall_mem_cons, List.not_mem_nil, false_implies, implies_true, and_true]
  refine ⟨?_, ?_, ?_, ?_, ?_⟩
  · refine (yields_true _).bind fun _ _ => ?_
    exact (yields_node v).bind fun n hn => yields_pure ⟨n, rfl, hn⟩
  · refine (yields_true _).bind fun _ _ => ?_
    exact (yields_word isTagChar).bind fun tag htag => yields_pure htag
  · refine (yields_true _).bind fun _ _ => ?_
    exact (yields_iri v).bind fun d hd => yields_pure hd
  · exact yields_pathTest hselector hstarts
  · refine (yields_true _).bind fun _ _ => ?_
    refine htest.padded.bind fun t ht => ?_
    exact (yields_true _).bind fun _ _ => yields_pure ht

private theorem yields_testLevel {v : Vocabulary} {selector : Parser Selector} {test : Parser Test}
    (hselector : selector.Yields (Selector.WellFormed Literal.Canonical))
    (htest : test.Yields (Test.WellFormed Literal.Canonical))
    (hstarts : RevealsLiterals v selector) :
    (testLevel v selector test).Yields (Test.WellFormed Literal.Canonical) := by
  have hunary : (unaryTest v selector test).Yields (Test.WellFormed Literal.Canonical) := by
    refine (yields_true _).bind fun negations _ => ?_
    refine (yields_primaryTest hselector htest hstarts).bind fun inner hinner => yields_pure ?_
    induction negations generalizing inner with
    | nil => exact hinner
    | cons _ negations ih => exact ih (.not inner) hinner
  have hand : (leftAssoc .and (either (char '&') (keyword "and"))
      (unaryTest v selector test)).Yields (Test.WellFormed Literal.Canonical) :=
    hunary.leftAssoc (fun t ht => ht) fun l r hl hr => ⟨hl, hr⟩
  exact hand.leftAssoc (fun t ht => ht) fun l r hl hr => ⟨hl, hr⟩

private theorem yields_selectorAt_testAt (v : Vocabulary) (n : Nat) :
    (selectorAt v n).Yields (Selector.WellFormed Literal.Canonical) ∧
      (testAt v n).Yields (Test.WellFormed Literal.Canonical) := by
  induction n with
  | zero =>
    constructor
    · intro s a k h
      cases h
    · intro s a k h
      cases h
  | succ n ih =>
    have hselector := yields_selectorLevel v ih.1 ih.2
    have hstarts := revealsLiterals_selectorLevel v (testAt v n) ih.1
    exact ⟨hselector, yields_testLevel hselector ih.2 hstarts⟩

end Parser

/-- A text is read with as many levels of nesting as it has characters. -/
theorem Selector.parse_eq_ok_iff {v : Vocabulary} {input : String} {s : Selector} :
    Selector.parse v input = .ok s ↔
      Parser.outcome (Parser.padded (Parser.selectorAt v (input.toList.length + 1))) input.toList =
        some (s, []) := by
  have hpath : Parser.outcome (Parser.pathExpression v) input.toList =
      Parser.outcome (Parser.padded (Parser.selectorAt v (input.toList.length + 1)))
        input.toList := by
    simp only [Parser.outcome, Parser.pathExpression]
  rw [← hpath, ← Parser.run_eq_ok_iff, Selector.parse]
  cases (Parser.pathExpression v).run input.toList <;> simp [Except.mapError]

/-- What is read from a text, with any vocabulary, is well formed. -/
theorem Selector.wellFormed_of_parse {v : Vocabulary} {input : String} {s : Selector}
    (h : Selector.parse v input = .ok s) : s.WellFormed Literal.Canonical := by
  have hyields := (Parser.yields_selectorAt_testAt v (input.toList.length + 1)).1.padded
  exact hyields (Selector.parse_eq_ok_iff.1 h)

end GraphPath
