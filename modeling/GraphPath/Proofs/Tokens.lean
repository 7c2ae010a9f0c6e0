import GraphPath.Proofs.Brackets
import GraphPath.Proofs.UniqueReading

/-!
# Tokens of SPARQL texts

How a text is cut into the tokens of SPARQL, where a literal is one token with its language or its
datatype, and which texts are one token in front of what follows them. Prefixed names and the other
kinds of quotes, which no query is printed with, are not tokens of their own here: they are cut into
words and symbols.
-/

namespace GraphPath

namespace Parser

variable {α β : Type} {n m : Nat}

/-- What the parser reads is at least `n` characters long. -/
def Takes (p : Parser α) (n : Nat) : Prop :=
  ∀ ⦃s a k⦄, outcome p s = some (a, k) → k.length + n ≤ s.length

private theorem takes_pure (a : α) : (pure a : Parser α).Takes 0 := by
  intro s b k h
  cases h
  exact Nat.le_refl _

private theorem Takes.bind {p : Parser α} {f : α → Parser β} (hp : p.Takes n)
    (hf : ∀ a, (f a).Takes m) : (p >>= f).Takes (m + n) := by
  intro s b k h
  rw [outcome_bind, Option.bind_eq_some_iff] at h
  obtain ⟨⟨a, l⟩, ha, hb⟩ := h
  have hfirst := hp ha
  have hsecond : k.length + m ≤ l.length := hf a hb
  omega

private theorem Takes.map {p : Parser α} (hp : p.Takes n) (f : α → β) : (f <$> p).Takes n := by
  rw [map_eq_pure_bind, ← Nat.zero_add n]
  exact hp.bind fun a => takes_pure (f a)

private theorem Takes.mono {p : Parser α} (hp : p.Takes n) (h : m ≤ n) : p.Takes m := by
  intro s a k hread
  have htaken := hp hread
  omega

private theorem takes_firstOf_nil : (firstOf [] : Parser α).Takes n := by
  intro s a k h
  cases h

private theorem Takes.firstOf_cons {p : Parser α} {ps : List (Parser α)} (hp : p.Takes n)
    (hps : (firstOf ps).Takes n) : (firstOf (p :: ps)).Takes n := by
  intro s a k h
  rw [outcome_firstOf_cons, Option.or_eq_some_iff] at h
  rcases h with h | ⟨-, h⟩
  · exact hp h
  · exact hps h

private theorem takes_satisfy (accepts : Char → Bool) : (satisfy accepts).Takes 1 := by
  intro s a k h
  cases s with
  | nil => cases h
  | cons c s =>
    rw [outcome_satisfy_cons] at h
    split at h
    · cases h
      exact Nat.le_refl _
    · cases h

private theorem takes_char (c : Char) :
    (char c).Takes 1 := (takes_satisfy _).bind fun _ => takes_pure ()

private theorem takes_span (accepts : Char → Bool) : (span accepts).Takes 0 := by
  intro s a k h
  cases h
  exact (List.dropWhile_suffix accepts).length_le

private theorem takes_span1 (accepts : Char → Bool) : (span1 accepts).Takes 1 := by
  intro s a k h
  rw [outcome_span1] at h
  split at h
  · cases h
  · next hne =>
    cases h
    have hlength := congrArg List.length (List.takeWhile_append_dropWhile (p := accepts) (l := s))
    rw [List.length_append] at hlength
    have hpos := List.length_pos_iff.2 hne
    omega

private theorem Chain.length_le {p : Parser α} (hp : p.Takes n) {s k : List Char} {as : List α}
    (h : Chain p s as k) : k.length + n * as.length ≤ s.length := by
  induction h with
  | nil k => simp
  | cons head tail ih =>
    have hhead := hp head
    rw [List.length_cons, Nat.mul_succ]
    omega

private theorem Takes.many {p : Parser α} (hp : p.Takes n) : (Parser.many p).Takes 0 := by
  intro s as k h
  have hlength := (chain_of_many h).length_le hp
  omega

private theorem Takes.outcome_many {p : Parser α} (hp : p.Takes 1) {s k : List Char} {as : List α}
    (h : Chain p s as k) (hstop : outcome p k = none) :
    outcome (Parser.many p) s = some (as, k) := by
  have hlength := h.length_le hp
  exact h.outcome_many hstop (by omega)

end Parser

namespace Sparql

open GraphPath.Parser

/-! ## The forms of tokens -/

/-- The characters that stand in a quoted text as they are. -/
def isQuotable (c : Char) : Bool := c ≠ '"' && c ≠ '\\' && c ≠ '\n' && c ≠ '\r'

/-- The characters that a backslash makes an escape of. -/
def isEscapable (c : Char) : Bool := "tbnrf\\\"'".toList.contains c

/-- One character of a quoted text, as it is or as an escape. -/
inductive IsQuotedChar : List Char → Prop
  | plain {c : Char} (h : isQuotable c = true) : IsQuotedChar [c]
  | escape {c : Char} (h : isEscapable c = true) : IsQuotedChar ['\\', c]

/-- One or more characters of a class. -/
def IsRun (accepts : Char → Bool) (s : List Char) : Prop := s ≠ [] ∧ ∀ c ∈ s, accepts c = true

/-- Letters, and then any number of parts of letters and digits, each behind a hyphen. -/
def IsLanguageTag (tag : List Char) : Prop :=
  ∃ (first : List Char) (parts : List (List Char)),
    IsRun Char.isAlpha first ∧ (∀ part ∈ parts, IsRun Char.isAlphanum part) ∧
    tag = first ++ parts.flatMap ('-' :: ·)

/-- An IRI between angle brackets. -/
def IsReference (text : List Char) : Prop :=
  ∃ body, (∀ c ∈ body, Iri.isForbidden c = false) ∧ text = '<' :: (body ++ ['>'])

/-- What may stand behind the closing quote of a literal. -/
inductive IsSuffix : List Char → Prop
  | nothing : IsSuffix []
  | language {tag : List Char} (h : IsLanguageTag tag) : IsSuffix ('@' :: tag)
  | datatype {text : List Char} (h : IsReference text) : IsSuffix ('^' :: '^' :: text)

/-- The whole text is one literal. Its first quote without a backslash closes the quoted text, which
has no line break. -/
inductive IsLiteral : List Char → Prop
  | quoted {pieces : List (List Char)} {suffix : List Char}
      (hpieces : ∀ piece ∈ pieces, IsQuotedChar piece) (hsuffix : IsSuffix suffix) :
      IsLiteral ('"' :: (pieces.flatten ++ '"' :: suffix))

/-! ## Reading tokens -/

inductive Token where
  | literal (text : List Char)
  | reference (text : List Char)
  | var (text : List Char)
  /-- A keyword, the name of a function, or a number. -/
  | word (text : List Char)
  | symbol (text : List Char)
deriving DecidableEq, Repr

def quotedChar : Parser (List Char) :=
  firstOf [(fun c => [c]) <$> satisfy isQuotable,
    do
      char '\\'
      let c ← satisfy isEscapable
      return ['\\', c]]

def quotedText : Parser (List Char) := do
  char '"'
  let pieces ← many quotedChar
  char '"'
  return '"' :: (pieces.flatten ++ ['"'])

def reference : Parser (List Char) := do
  char '<'
  let body ← span fun c => !Iri.isForbidden c
  char '>'
  return '<' :: (body ++ ['>'])

def subtag : Parser (List Char) := do
  char '-'
  let part ← span1 Char.isAlphanum
  return '-' :: part

def languageTag : Parser (List Char) := do
  let first ← span1 Char.isAlpha
  let parts ← many subtag
  return first ++ parts.flatten

/-- The language or the datatype behind a quoted text, if there is one. -/
def suffix : Parser (List Char) :=
  firstOf [
    do
      char '@'
      let tag ← languageTag
      return '@' :: tag,
    do
      char '^'
      char '^'
      let text ← reference
      return '^' :: '^' :: text,
    pure []]

def literal : Parser (List Char) := do
  let text ← quotedText
  let more ← suffix
  return text ++ more

def var : Parser (List Char) := do
  let mark ← satisfy fun c => c = '?' || c = '$'
  let name ← span1 Settings.isVariableChar
  return mark :: name

/-- The second characters of the symbols that have two. -/
def doubled (c : Char) : List Char :=
  if c = '&' then ['&']
  else if c = '|' then ['|']
  else if c = '^' then ['^']
  else if c = '!' ∨ c = '<' ∨ c = '>' then ['=']
  else []

/-- A symbol of two characters or else of one. What is nothing else is a symbol. -/
def symbol : Parser (List Char) :=
  firstOf [
    do
      let c ← satisfy fun _ => true
      let d ← satisfy fun d => (doubled c).contains d
      return [c, d],
    (fun c => [c]) <$> satisfy fun _ => true]

def token : Parser Token :=
  firstOf [.literal <$> literal, .reference <$> reference, .var <$> var,
    .word <$> span1 Settings.isVariableChar, .symbol <$> symbol]

def isSpace (c : Char) : Bool := c = ' ' || c = '\t' || c = '\n' || c = '\r'

/-- The text without the blanks and the comments at its start. A comment ends with its line. -/
def skip (comment : Bool) : List Char → List Char
  | [] => []
  | c :: s =>
    if comment then skip (c ≠ '\n' && c ≠ '\r') s
    else if c = '#' then skip true s
    else if isSpace c then skip false s
    else c :: s

private theorem length_skip_le (comment : Bool) (s : List Char) :
    (skip comment s).length ≤ s.length := by
  induction s generalizing comment with
  | nil => simp [skip]
  | cons c s ih =>
    unfold skip
    split_ifs
    · exact Nat.le_succ_of_le (ih _)
    · exact Nat.le_succ_of_le (ih _)
    · exact Nat.le_succ_of_le (ih _)
    · exact Nat.le_refl _

private theorem takes_quotedChar : quotedChar.Takes 1 :=
  ((takes_satisfy _).map _).firstOf_cons (Takes.firstOf_cons
    (((takes_char '\\').bind fun _ => (takes_satisfy _).bind fun _ => takes_pure _).mono
      (by omega)) takes_firstOf_nil)

private theorem takes_reference : reference.Takes 2 :=
  (takes_char '<').bind fun _ => (takes_span _).bind fun _ => (takes_char '>').bind fun _ =>
    takes_pure _

private theorem takes_subtag : subtag.Takes 2 :=
  (takes_char '-').bind fun _ => (takes_span1 _).bind fun _ => takes_pure _

private theorem takes_languageTag : languageTag.Takes 1 :=
  (takes_span1 _).bind fun _ => takes_subtag.many.bind fun _ => takes_pure _

private theorem takes_suffix : suffix.Takes 0 := by
  have hlanguage : (do char '@'; let tag ← languageTag; return '@' :: tag).Takes 2 :=
    (takes_char '@').bind fun _ => takes_languageTag.bind fun _ => takes_pure _
  have hdatatype : (do
      char '^'; char '^'; let text ← reference; return '^' :: '^' :: text).Takes 4 :=
    (takes_char '^').bind fun _ => (takes_char '^').bind fun _ => takes_reference.bind fun _ =>
      takes_pure _
  exact (hlanguage.mono (Nat.zero_le _)).firstOf_cons ((hdatatype.mono (Nat.zero_le _)).firstOf_cons
    ((takes_pure []).firstOf_cons takes_firstOf_nil))

private theorem takes_literal : literal.Takes 2 :=
  Takes.bind ((takes_char '"').bind fun _ => takes_quotedChar.many.bind fun _ =>
    (takes_char '"').bind fun _ => takes_pure _) fun _ => takes_suffix.bind fun _ => takes_pure _

private theorem takes_var : var.Takes 2 :=
  (takes_satisfy _).bind fun _ => (takes_span1 _).bind fun _ => takes_pure _

private theorem takes_symbol : symbol.Takes 1 :=
  Takes.firstOf_cons (((takes_satisfy _).bind fun _ => (takes_satisfy _).bind fun _ =>
    takes_pure _).mono (by omega)) (((takes_satisfy _).map _).firstOf_cons takes_firstOf_nil)

private theorem takes_token : token.Takes 1 :=
  ((takes_literal.map _).mono (by omega)).firstOf_cons <|
    ((takes_reference.map _).mono (by omega)).firstOf_cons <|
      ((takes_var.map _).mono (by omega)).firstOf_cons <|
        ((takes_span1 _).map _).firstOf_cons ((takes_symbol.map _).firstOf_cons takes_firstOf_nil)

private theorem length_lt_of_token {s : List Char} {x : Token × List Char}
    (h : outcome token (skip false s) = some x) : x.2.length < s.length :=
  Nat.lt_of_lt_of_le (takes_token h) (length_skip_le false s)

/-- The tokens of a text, one after the other. -/
def tokens (s : List Char) : List Token :=
  match h : outcome token (skip false s) with
  | none => []
  | some x =>
    have := length_lt_of_token h
    x.1 :: tokens x.2
termination_by s.length

private theorem tokens_of_none {s : List Char} (h : outcome token (skip false s) = none) :
    tokens s = [] := by
  rw [tokens]
  split
  · rfl
  · next hsome => simp [h] at hsome

private theorem tokens_cons {s k : List Char} {t : Token}
    (h : outcome token (skip false s) = some (t, k)) :
    tokens s = t :: tokens k := by
  rw [tokens]
  split
  · next hnone => simp [hnone] at h
  · next x hsome =>
    obtain rfl : x = (t, k) := Option.some.inj (hsome.symm.trans h)
    rfl

private theorem tokens_congr {s s' : List Char} (h : skip false s = skip false s') :
    tokens s = tokens s' := by
  cases hread : outcome token (skip false s) with
  | none => rw [tokens_of_none hread, tokens_of_none (h ▸ hread)]
  | some x => rw [tokens_cons (s := s) hread, tokens_cons (s := s') (h ▸ hread)]

@[simp]
theorem tokens_nil : tokens [] = [] := tokens_of_none rfl

@[simp]
theorem tokens_blank (s : List Char) : tokens (' ' :: s) = tokens s :=
  tokens_congr (by simp [skip, isSpace])

@[simp]
theorem tokens_newline (s : List Char) : tokens ('\n' :: s) = tokens s :=
  tokens_congr (by simp [skip, isSpace])

@[simp]
theorem tokens_indentation (depth : Nat) (s : List Char) :
    tokens ((indentation depth).toList ++ s) = tokens s := by
  rw [indentation, String.toList_ofList]
  induction 2 * depth with
  | zero => rfl
  | succ n ih => rw [List.replicate_succ, List.cons_append, tokens_blank, ih]

/-! ## One token in front of a text -/

private theorem outcome_literal_of_ne {c : Char} (h : c ≠ '"') (s : List Char) :
    outcome literal (c :: s) = none := by
  simp [literal, quotedText, h]

theorem outcome_reference_of_ne {c : Char} (h : c ≠ '<') (s : List Char) :
    outcome reference (c :: s) = none := by
  simp [reference, h]

private theorem outcome_var_of_ne {c : Char} (h : c ≠ '?') (h' : c ≠ '$') (s : List Char) :
    outcome var (c :: s) = none := by
  simp [var, h, h']

private theorem skip_of_not {c : Char} (hspace : isSpace c = false) (hcomment : c ≠ '#')
    (s : List Char) :
    skip false (c :: s) = c :: s := by
  simp [skip, hspace, hcomment]

/-- The characters that can only be symbols or start one, apart from an opening angle bracket. -/
def startsSymbol (c : Char) : Bool :=
  !(isSpace c || Settings.isVariableChar c || "#\"?$".toList.contains c)

private theorem tokens_of_symbol {c : Char} {s text k : List Char} (hc : startsSymbol c = true)
    (hreference : outcome reference (c :: s) = none)
    (h : outcome symbol (c :: s) = some (text, k)) :
    tokens (c :: s) = .symbol text :: tokens k := by
  simp only [startsSymbol, Bool.not_eq_true', Bool.or_eq_false_iff, List.contains_eq_mem,
    decide_eq_false_iff_not] at hc
  obtain ⟨⟨hspace, hword⟩, hlead⟩ := hc
  obtain ⟨hcomment, hquote, hmark, hdollar⟩ : c ≠ '#' ∧ c ≠ '"' ∧ c ≠ '?' ∧ c ≠ '$' := by
    simpa using hlead
  apply tokens_cons
  rw [skip_of_not hspace hcomment]
  simp [token, outcome_literal_of_ne hquote, hreference, outcome_var_of_ne hmark hdollar, hword, h]

theorem tokens_symbol {c : Char} (hc : startsSymbol c = true) {s : List Char}
    (hreference : outcome reference (c :: s) = none) (hs : ∀ d ∈ s.head?, d ∉ doubled c) :
    tokens (c :: s) = .symbol [c] :: tokens s := by
  refine tokens_of_symbol hc hreference ?_
  cases s with
  | nil => simp [symbol]
  | cons d s => simp [symbol, hs d rfl]

private theorem tokens_pair {c d : Char} (hc : startsSymbol c = true) (hd : d ∈ doubled c)
    {s : List Char} (hreference : outcome reference (c :: d :: s) = none) :
    tokens (c :: d :: s) = .symbol [c, d] :: tokens s :=
  tokens_of_symbol hc hreference (by simp [symbol, hd])

theorem tokens_connective (c : Connective) (s : List Char) :
    tokens (c.symbol.toList ++ ' ' :: s) = .symbol c.symbol.toList :: tokens s := by
  have hforbidden : Iri.isForbidden ' ' = true := by decide
  have hallowed : Iri.isForbidden '=' = false := by decide
  rw [← tokens_blank s]
  rcases c with _ | _ | op
  · exact tokens_pair rfl (by decide) (outcome_reference_of_ne (by decide) _)
  · exact tokens_pair rfl (by decide) (outcome_reference_of_ne (by decide) _)
  · cases op
    · exact tokens_symbol (c := '=') rfl (outcome_reference_of_ne (by decide) _)
        (by simp [doubled])
    · exact tokens_pair rfl (by decide) (outcome_reference_of_ne (by decide) _)
    · exact tokens_symbol (c := '<') rfl (by simp [reference, hforbidden]) (by simp [doubled])
    · exact tokens_pair (c := '<') (d := '=') rfl (by decide)
        (by simp [reference, hforbidden, hallowed])
    · exact tokens_symbol (c := '>') rfl (outcome_reference_of_ne (by decide) _)
        (by simp [doubled])
    · exact tokens_pair rfl (by decide) (outcome_reference_of_ne (by decide) _)

def isWord (w : List Char) : Bool := !w.isEmpty && w.all Settings.isVariableChar

theorem tokens_word {w k : List Char} (hw : isWord w = true)
    (hk : ∀ c ∈ k.head?, Settings.isVariableChar c = false) :
    tokens (w ++ k) = .word w :: tokens k := by
  simp only [isWord, Bool.and_eq_true, Bool.not_eq_true', List.isEmpty_eq_false_iff,
    List.all_eq_true] at hw
  obtain ⟨hne, hall⟩ := hw
  have hread := outcome_span1_append hne hall hk
  obtain ⟨c, w, rfl⟩ := List.exists_cons_of_ne_nil hne
  have hc : Settings.isVariableChar c = true := hall c List.mem_cons_self
  have hother : ∀ d, Settings.isVariableChar d = false → c ≠ d := by
    rintro d hd rfl
    rw [hc] at hd
    cases hd
  have hspace : isSpace c = false := by
    simp [isSpace, hother ' ' rfl, hother '\t' rfl, hother '\n' rfl, hother '\r' rfl]
  apply tokens_cons
  rw [List.cons_append] at hread ⊢
  rw [skip_of_not hspace (hother '#' rfl)]
  simp [token, outcome_literal_of_ne (hother '"' rfl), outcome_reference_of_ne (hother '<' rfl),
    outcome_var_of_ne (hother '?' rfl) (hother '$' rfl), hread, -outcome_span1]

theorem tokens_var {v : Variable} (hv : v.WellNamed) {k : List Char} (hk : Text.Ended k) :
    tokens (v.render.toList ++ k) = .var v.render.toList :: tokens k := by
  obtain ⟨hne, hall⟩ := hv
  rw [List.all_eq_true] at hall
  have hlist : v.name.toList ≠ [] := by simpa using hne
  have hread := outcome_span1_append hlist hall
    (hk.not_class fun _ => Text.isVariableChar_of_endsTerm)
  have hrender : v.render.toList = '?' :: v.name.toList := by simp [Variable.render]
  apply tokens_cons
  rw [hrender, List.cons_append, skip_of_not rfl (by decide)]
  simp [token, outcome_literal_of_ne, outcome_reference_of_ne, var, hread, -outcome_span1]

private theorem outcome_reference {text : List Char} (h : IsReference text) (k : List Char) :
    outcome reference (text ++ k) = some (text, k) := by
  obtain ⟨body, hbody, rfl⟩ := h
  have hall : ∀ c ∈ body, (!Iri.isForbidden c) = true := by simpa using hbody
  have hk : ∀ c ∈ ('>' :: k).head?, (!Iri.isForbidden c) = false := by simp; decide
  have htake := Text.takeWhile_append hall hk
  have hdrop := Text.dropWhile_append hall hk
  simp [reference, htake, hdrop]

theorem tokens_reference {text : List Char} (h : IsReference text) (k : List Char) :
    tokens (text ++ k) = .reference text :: tokens k := by
  have hread := outcome_reference h k
  obtain ⟨body, -, rfl⟩ := h
  apply tokens_cons
  rw [List.cons_append] at hread ⊢
  rw [skip_of_not rfl (by decide)]
  simpa [token, outcome_literal_of_ne] using hread

theorem outcome_quotedText {pieces : List (List Char)}
    (h : ∀ piece ∈ pieces, IsQuotedChar piece) (k : List Char) :
    outcome quotedText ('"' :: (pieces.flatten ++ '"' :: k)) =
      some ('"' :: (pieces.flatten ++ ['"']), k) := by
  have hchain : Chain quotedChar (pieces.flatten ++ '"' :: k) pieces ('"' :: k) := by
    induction pieces with
    | nil => exact .nil _
    | cons piece pieces ih =>
      rw [List.forall_mem_cons] at h
      refine .cons ?_ (ih h.2)
      cases h.1 with
      | plain hc => simp [quotedChar, hc]
      | escape hc => simp [quotedChar, hc, isQuotable]
  have hstop : outcome quotedChar ('"' :: k) = none := by simp [quotedChar, isQuotable]
  have hread := takes_quotedChar.outcome_many hchain hstop
  simp [quotedText, hread]

private theorem isAlphanum_head_parts (parts : List (List Char)) {k : List Char}
    (hk : ∀ c ∈ k.head?, isTagChar c = false) :
    ∀ c ∈ (parts.flatMap ('-' :: ·) ++ k).head?, c.isAlphanum = false := by
  cases parts with
  | nil =>
    intro c hc
    have htag := hk c hc
    simp only [isTagChar, Bool.or_eq_false_iff] at htag
    exact htag.1
  | cons part parts => simp

private theorem chain_subtag {parts : List (List Char)}
    (h : ∀ part ∈ parts, IsRun Char.isAlphanum part) {k : List Char}
    (hk : ∀ c ∈ k.head?, isTagChar c = false) :
    Chain subtag (parts.flatMap ('-' :: ·) ++ k) (parts.map ('-' :: ·)) k := by
  induction parts with
  | nil => exact .nil k
  | cons part parts ih =>
    rw [List.forall_mem_cons] at h
    refine .cons ?_ (ih h.2)
    have hread := outcome_span1_append h.1.1 h.1.2 (isAlphanum_head_parts parts hk)
    simp [subtag, hread, -outcome_span1]

theorem outcome_languageTag {tag : List Char} (h : IsLanguageTag tag) {k : List Char}
    (hk : ∀ c ∈ k.head?, isTagChar c = false) :
    outcome languageTag (tag ++ k) = some (tag, k) := by
  obtain ⟨first, parts, ⟨hne, hfirst⟩, hparts, rfl⟩ := h
  have hrest : ∀ c ∈ (parts.flatMap ('-' :: ·) ++ k).head?, c.isAlpha = false := by
    intro c hc
    have halphanum := isAlphanum_head_parts parts hk c hc
    unfold Char.isAlphanum at halphanum
    exact (Bool.or_eq_false_iff.1 halphanum).1
  have hhead := outcome_span1_append hne hfirst hrest
  have hstop : outcome subtag k = none := by
    cases k with
    | nil => simp [subtag]
    | cons c k =>
      have hc : c ≠ '-' := by
        rintro rfl
        simp [isTagChar] at hk
      simp [subtag, hc]
  have hread := (takes_subtag.mono (by omega)).outcome_many (chain_subtag hparts hk) hstop
  simp [languageTag, hhead, hread, ← List.flatMap_def, -outcome_span1]

private theorem outcome_suffix {text : List Char} (h : IsSuffix text) {k : List Char}
    (hk : Text.Ended k) : outcome suffix (text ++ k) = some (text, k) := by
  cases h with
  | nothing =>
    cases k with
    | nil => simp [suffix]
    | cons c k =>
      have hne : ∀ d, Text.endsTerm d = false → c ≠ d := by
        rintro d hd rfl
        simp [hd] at hk
      simp [suffix, hne '@' rfl, hne '^' rfl]
  | language htag =>
    have hread := outcome_languageTag htag (hk.not_class fun _ => Text.isTagChar_of_endsTerm)
    simp [suffix, hread]
  | datatype htype =>
    have hread := outcome_reference htype k
    simp [suffix, hread]

theorem tokens_literal {text : List Char} (h : IsLiteral text) {k : List Char}
    (hk : Text.Ended k) : tokens (text ++ k) = .literal text :: tokens k := by
  obtain @⟨pieces, more, hpieces, hmore⟩ := h
  have hquoted := outcome_quotedText hpieces (more ++ k)
  have hsuffix := outcome_suffix hmore hk
  apply tokens_cons
  rw [List.cons_append, skip_of_not rfl (by decide)]
  simp [token, literal, hquoted, hsuffix]

example : tokens "?v != \"a\\\" #\"@en # )".toList =
    [.var "?v".toList, .symbol "!=".toList, .literal "\"a\\\" #\"@en".toList] := by
  decide +kernel

/-- The characters that are a symbol wherever they stand outside of other tokens. -/
def isBracket (c : Char) : Bool := startsSymbol c && c ≠ '<' && (doubled c).isEmpty

theorem tokens_bracket {c : Char} (hc : isBracket c = true) (s : List Char) :
    tokens (c :: s) = .symbol [c] :: tokens s := by
  simp only [isBracket, Bool.and_eq_true, decide_eq_true_eq, List.isEmpty_iff] at hc
  obtain ⟨⟨hsymbol, hne⟩, hdoubled⟩ := hc
  exact tokens_symbol hsymbol (outcome_reference_of_ne hne s) (by simp [hdoubled])

def keyword (name : String) : Token := .word name.toList

theorem tokens_keyword_blank {name : String} (hname : isWord name.toList = true) (k : List Char) :
    tokens (name.toList ++ ' ' :: k) = keyword name :: tokens k := by
  rw [tokens_word hname (by simp; decide), tokens_blank]
  rfl

theorem tokens_spaced (text name : String) (htext : text.toList = name.toList ++ [' '])
    (hname : isWord name.toList = true) (k : List Char) :
    tokens (text.toList ++ k) = keyword name :: tokens k := by
  rw [htext, List.append_assoc, List.cons_append, List.nil_append, tokens_keyword_blank hname]

theorem tokens_keyword_bracket {name : String} (hname : isWord name.toList = true)
    (k : List Char) : tokens (name.toList ++ '(' :: k) = keyword name :: tokens ('(' :: k) :=
  tokens_word hname (by simp; decide)

def bracketed (ts : List Token) : List Token := .symbol ['('] :: (ts ++ [.symbol [')']])

theorem tokens_bracketed {text : List Char} {ts : List Token}
    (h : ∀ ⦃k⦄, Text.Ended k → tokens (text ++ k) = ts ++ tokens k) (k : List Char) :
    tokens ('(' :: (text ++ ')' :: k)) = bracketed ts ++ tokens k := by
  rw [tokens_bracket rfl, h (by simp [Text.endsTerm]), tokens_bracket rfl]
  simp [bracketed]

def inBraces (ts : List Token) : List Token := .symbol ['\x7b'] :: (ts ++ [.symbol ['\x7d']])

theorem tokens_braced {body : String} {ts : List Token}
    (h : ∀ k, tokens (body.toList ++ k) = ts ++ tokens k) (depth : Nat) (k : List Char) :
    tokens ((braced depth body).toList ++ k) = inBraces ts ++ tokens k := by
  simp only [toList_braced, List.cons_append, List.append_assoc]
  rw [tokens_bracket rfl, tokens_newline, h, tokens_indentation, List.nil_append,
    tokens_bracket rfl]
  simp [inBraces]

end Sparql

end GraphPath
