import GraphPath.CommandLine.Run
import GraphPath.Proofs.Lookups
import GraphPath.Proofs.Quotation
import GraphPath.Proofs.Reloading
import GraphPath.Proofs.Rereading

/-!
# Compact names as words

What a compact name is read as, alone and with other words behind it. In the place of an IRI it is
expanded; in the place of a node or a path it is expanded unless it opens like a number, since a
number is tried first and what is left of the name is then no word of its own.
-/

namespace GraphPath

/-- A short name and a local part, both of the characters of names. -/
structure CompactName where
  short : String
  name : String
  short_chars : short.toList.all Parser.isNameChar = true
  name_chars : name.toList.all Parser.isNameChar = true
  name_ne : name ≠ ""

theorem toOption_eq_some_iff {ε α : Type} {x : Except ε α} {a : α} :
    x.toOption = some a ↔ x = .ok a := by
  cases x <;> simp [Except.toOption]

/-! ## Characters -/

namespace Parser

private theorem isNameChar_ofNat_of_le {n : Nat} (h : n ≤ 0x20) :
    isNameChar (Char.ofNat n) = false := by
  have hall : ∀ m < 0x21, isNameChar (Char.ofNat m) = false := by decide +kernel
  exact hall n (by omega)

private theorem isNameChar_ofNat_of_blank {n : Nat} (h : Text.inSpans Text.blankSpans n = true) :
    isNameChar (Char.ofNat n) = false := by
  have hall : ∀ m ∈ [0x85, 0xa0, 0x1680, 0x2000, 0x2001, 0x2002, 0x2003, 0x2004, 0x2005, 0x2006,
      0x2007, 0x2008, 0x2009, 0x200a, 0x2028, 0x2029, 0x202f, 0x205f, 0x3000],
      isNameChar (Char.ofNat m) = false := by decide +kernel
  by_cases hle : n ≤ 0x20
  · exact isNameChar_ofNat_of_le hle
  · apply hall
    simp [Text.blankSpans, Text.inSpans] at h
    simp only [List.mem_cons, List.not_mem_nil, or_false]
    omega

private theorem not_forbidden_of_isNameChar {c : Char} (h : isNameChar c = true) :
    Iri.isForbidden c = false := by
  have hdelimiters : ("<>\"\x7b\x7d|^\x60\\".toList.all fun d => !isNameChar d) = true := by
    decide +kernel
  by_contra hforbidden
  simp only [Iri.isForbidden, Bool.not_eq_false, Bool.or_eq_true, decide_eq_true_eq,
    List.contains_iff_mem] at hforbidden
  have hno : isNameChar c = false := by
    rcases hforbidden with (hmem | hle) | hblank
    · simpa using List.all_eq_true.1 hdelimiters c hmem
    · exact Char.ofNat_toNat c ▸ isNameChar_ofNat_of_le hle
    · exact Char.ofNat_toNat c ▸ isNameChar_ofNat_of_blank hblank
  rw [h] at hno
  cases hno

/-- The text opens with a digit, perhaps after a minus sign. -/
def opensNumber (s : List Char) : Bool :=
  (if s.head? = some '-' then s.tail else s).head?.any isDigit

private theorem isSome_span1 (accepts : Char → Bool) (s : List Char) :
    (outcome (span1 accepts) s).isSome = s.head?.any accepts := by
  cases s with
  | nil => rfl
  | cons c s => by_cases hc : accepts c = true <;> simp [hc]

private theorem isSome_digits {β : Type} (f : List Char → Option (List Char) → β) (s : List Char) :
    (outcome (do
      let whole ← span1 isDigit
      let fraction ← optional (do
        char '.'
        span1 isDigit)
      return f whole fraction) s).isSome = s.head?.any isDigit := by
  rw [outcome_bind, ← isSome_span1]
  cases outcome (span1 isDigit) s with
  | none => rfl
  | some x =>
    rw [Option.bind_some, outcome_bind, outcome_optional]
    cases outcome (do char '.'; span1 isDigit) x.2 <;> rfl

private theorem isSome_numericLiteral (s : List Char) :
    (outcome numericLiteral s).isSome = opensNumber s := by
  rw [numericLiteral, outcome_lexeme, outcome_bind, outcome_optional]
  cases s with
  | nil => rfl
  | cons d s =>
    rw [outcome_char_cons]
    by_cases hd : d = '-'
    · subst hd
      exact isSome_digits _ s
    · have hopens : opensNumber (d :: s) = (d :: s).head?.any isDigit := by simp [opensNumber, hd]
      rw [if_neg hd, hopens]
      exact isSome_digits _ (d :: s)

end Parser

namespace CompactName

variable (c : CompactName)

def text : String := c.short ++ ":" ++ c.name

/-- The IRI that the name stands for, if its short name is known and the result is an IRI. -/
def iri? (v : Vocabulary) : Option Iri := (Parser.expandName v c.short c.name).toOption

/-- What the name is read as where a number is tried first. -/
def read? (v : Vocabulary) : Option Iri :=
  if Parser.opensNumber c.text.toList then none else c.iri? v

private theorem toList_text : c.text.toList = c.short.toList ++ ':' :: c.name.toList := by
  simp [text]

private theorem isNameChar_or_eq {d : Char} (h : d ∈ c.text.toList) :
    Parser.isNameChar d = true ∨ d = ':' := by
  rw [toList_text, List.mem_append, List.mem_cons] at h
  rcases h with hshort | rfl | hname
  · exact Or.inl (List.all_eq_true.1 c.short_chars d hshort)
  · exact Or.inr rfl
  · exact Or.inl (List.all_eq_true.1 c.name_chars d hname)

theorem ne_of_mem {d e : Char} (h : d ∈ c.text.toList)
    (he : Parser.isNameChar e = false ∧ e ≠ ':') : d ≠ e := by
  rintro rfl
  rcases c.isNameChar_or_eq h with hname | hcolon
  · rw [he.1] at hname
    cases hname
  · exact he.2 hcolon

private theorem not_forbidden {d : Char} (h : d ∈ c.text.toList) : Iri.isForbidden d = false := by
  rcases c.isNameChar_or_eq h with hname | rfl
  · exact Parser.not_forbidden_of_isNameChar hname
  · decide

theorem not_blank {d : Char} (h : d ∈ c.text.toList) : Text.isBlank d = false := by
  have hallowed := c.not_forbidden h
  simp only [Iri.isForbidden, Bool.or_eq_false_iff] at hallowed
  exact hallowed.2

private theorem toList_name_ne : c.name.toList ≠ [] := by
  intro hnil
  exact c.name_ne (String.toList_inj.1 (by simpa using hnil))

theorem exists_text_eq : ∃ d e rest, c.text.toList = d :: e :: rest := by
  obtain ⟨e, rest, hrest⟩ := List.exists_cons_of_ne_nil c.toList_name_ne
  rw [toList_text, hrest]
  cases c.short.toList with
  | nil => exact ⟨':', e, rest, rfl⟩
  | cons d short =>
    cases short with
    | nil => exact ⟨d, ':', e :: rest, rfl⟩
    | cons d' short => exact ⟨d, d', short ++ ':' :: e :: rest, rfl⟩

private theorem skipBlanks_text (k : List Char) :
    Text.skipBlanks (c.text.toList ++ k) = c.text.toList ++ k := by
  obtain ⟨d, e, rest, htext⟩ := c.exists_text_eq
  have hd : Text.isBlank d = false := c.not_blank (by simp [htext])
  rw [htext]
  exact Text.skipBlanks_of_not_blank _ hd

private theorem wellFormed_text : Iri.WellFormed ⟨c.text⟩ := by
  obtain ⟨d, e, rest, htext⟩ := c.exists_text_eq
  have hne : c.text.isEmpty = false := by
    rw [← Bool.not_eq_true, String.isEmpty_iff]
    intro hempty
    simp [hempty] at htext
  have hfind : c.text.toList.find? Iri.isForbidden = none := by
    rw [List.find?_eq_none]
    intro f hf
    simp [c.not_forbidden hf]
  rw [Iri.WellFormed, Iri.parse, hne, hfind]
  rfl

private theorem trim_text : Text.trim c.text.toList = c.text.toList := by
  have hstart := c.skipBlanks_text []
  rw [List.append_nil] at hstart
  rcases List.eq_nil_or_concat' c.text.toList with hnil | ⟨front, last, htext⟩
  · rw [hnil]
    rfl
  · have hlast : Text.isBlank last = false := c.not_blank (by simp [htext])
    rw [htext] at hstart ⊢
    exact Text.trim_eq_self hstart hlast

private theorem opensNumber_append (k : List Char) :
    Parser.opensNumber (c.text.toList ++ k) = Parser.opensNumber c.text.toList := by
  obtain ⟨d, e, rest, htext⟩ := c.exists_text_eq
  rw [htext]
  by_cases hd : d = '-' <;> simp [Parser.opensNumber, hd]

end CompactName

/-! ## In the place of an IRI or a node -/

namespace Parser

variable (v : Vocabulary) (c : CompactName) {k : List Char}

private theorem outcome_compactName (hk : ∀ d ∈ k.head?, isNameChar d = false) :
    outcome (compactName v) (c.text.toList ++ k) = (c.iri? v).map fun i => (i, k) := by
  have hshort : ∀ d ∈ c.short.toList, isNameChar d = true := List.all_eq_true.1 c.short_chars
  have hname : ∀ d ∈ c.name.toList, isNameChar d = true := List.all_eq_true.1 c.name_chars
  have hcolon : ∀ d ∈ (':' :: (c.name.toList ++ k)).head?, isNameChar d = false := by
    intro d hd
    cases hd
    decide
  have hspan := outcome_span1_append c.toList_name_ne hname hk
  rw [CompactName.toList_text, List.append_assoc, List.cons_append]
  simp [compactName, Text.takeWhile_append hshort hcolon, Text.dropWhile_append hshort hcolon,
    hspan, CompactName.iri?, -outcome_span1]

theorem outcome_iri_compact (hk : ∀ d ∈ k.head?, isNameChar d = false) :
    outcome (iri v) (c.text.toList ++ k) = (c.iri? v).map fun i => (i, k) := by
  obtain ⟨d, e, rest, htext⟩ := c.exists_text_eq
  have hd : d ≠ '<' := c.ne_of_mem (by simp [htext]) (by decide)
  have hbracketed : outcome bracketedIri (c.text.toList ++ k) = none := by
    simp [htext, bracketedIri, hd]
  rw [iri, outcome_either, hbracketed, Option.none_or, outcome_compactName v c hk]

private theorem outcome_literal_compact :
    outcome (literal v) (c.text.toList ++ k) = outcome numericLiteral (c.text.toList ++ k) := by
  obtain ⟨d, e, rest, htext⟩ := c.exists_text_eq
  have hsingle : d ≠ '\'' := c.ne_of_mem (by simp [htext]) (by decide)
  have hdouble : d ≠ '"' := c.ne_of_mem (by simp [htext]) (by decide)
  have hquoted : outcome (quotedLiteral v) (c.text.toList ++ k) = none := by
    simp [htext, quotedLiteral, quoted, singleQuoted, doubleQuoted, quotedBy, hsingle, hdouble]
  rw [literal, outcome_either, hquoted, Option.none_or]

private theorem outcome_numericLiteral_compact (h : opensNumber c.text.toList = false) :
    outcome numericLiteral (c.text.toList ++ k) = none := by
  rw [← Option.not_isSome_iff_eq_none, isSome_numericLiteral, c.opensNumber_append, h]
  simp

theorem outcome_node_compact (hk : ∀ d ∈ k.head?, isNameChar d = false)
    (h : opensNumber c.text.toList = false) :
    outcome (node v) (c.text.toList ++ k) = (c.iri? v).map fun i => (.iri i, k) := by
  rw [node, outcome_lexeme, outcome_either, outcome_map, outcome_literal_compact,
    outcome_numericLiteral_compact c h, outcome_map, outcome_iri_compact v c hk]
  cases c.iri? v <;> rfl

private theorem numericLiteral_leaves_colon : numericLiteral.Leaves ':' :=
  Leaves.lexeme ((leaves_char (by decide)).optional.bind fun _ =>
    (leaves_span1 (by decide)).bind fun _ =>
      ((leaves_char (by decide)).bind fun _ => leaves_span1 (by decide)).optional.bind fun _ =>
        leaves_pure _)

private theorem exists_outcome_numericLiteral (h : opensNumber c.text.toList = true) :
    ∃ l d rest, outcome numericLiteral c.text.toList = some (l, d :: rest) ∧
      d ∈ c.text.toList := by
  rw [← isSome_numericLiteral] at h
  obtain ⟨⟨l, k⟩, hread⟩ := Option.isSome_iff_exists.1 h
  have hcolon : ':' ∈ k := numericLiteral_leaves_colon hread (by simp [CompactName.toList_text])
  have hsuffix : k <:+ c.text.toList := alike_numericLiteral.suffix List.suffix_rfl hread
  obtain ⟨d, rest, rfl⟩ := List.exists_cons_of_ne_nil (List.ne_nil_of_mem hcolon)
  exact ⟨l, d, rest, hread, hsuffix.subset List.mem_cons_self⟩

theorem toOption_run_eq_some_iff {α : Type} {p : Parser α} {s : List Char} {a : α} :
    (run p s).toOption = some a ↔ outcome p s = some (a, []) := by
  rw [toOption_eq_some_iff, run_eq_ok_iff]

private theorem run_node_compact :
    ((node v).run c.text.toList).toOption = (c.read? v).map .iri := by
  apply Option.ext
  intro n
  rw [toOption_run_eq_some_iff, CompactName.read?]
  by_cases h : opensNumber c.text.toList = true
  · obtain ⟨l, d, rest, hread, -⟩ := exists_outcome_numericLiteral c h
    have hliteral := outcome_literal_compact v c (k := [])
    rw [List.append_nil, hread] at hliteral
    simp [node, hliteral, h]
  · rw [Bool.not_eq_true] at h
    have hread := outcome_node_compact v c (k := []) (by simp) h
    rw [List.append_nil] at hread
    rw [hread, h]
    cases c.iri? v <;> simp

/-! ## As a path -/

variable {selector : Parser Selector} {test : Parser Test} {s : List Char}

private theorem functionCall_refuses (h : '(' ∉ s) : outcome (functionCall selector) s = none := by
  have hopen (k : List Char) (hk : k <:+ s) : outcome (padded (char '(')) k = none := by
    have hsuffix : Text.skipBlanks k <:+ s := (List.dropWhile_suffix Text.isBlank).trans hk
    rw [outcome_padded]
    cases hrest : Text.skipBlanks k with
    | nil => rfl
    | cons d rest =>
      have hd : d ≠ '(' := by
        rintro rfl
        exact h (hsuffix.subset (by simp [hrest]))
      simp [hd]
  have hidentifier : Alike s identifier identifier :=
    ((alike_span1 isIdentifierChar).map String.ofList).lexeme
  rw [functionCall, outcome_lexeme, outcome_bind]
  cases hchars : outcome (chars ['f', 'n', ':']) s with
  | none => rfl
  | some x =>
    have hx := (alike_chars _).suffix List.suffix_rfl hchars
    rw [Option.bind_some, outcome_bind]
    cases hname : outcome identifier x.2 with
    | none => rfl
    | some y =>
      have hy := hidentifier.suffix hx hname
      rw [Option.bind_some, outcome_bind, hopen y.2 hy]
      rfl

private theorem outcome_selectorLevel_of_atom {a : Selector} {k : List Char}
    (ha : outcome (atom v selector) s = some (a, k))
    (hk : ∀ d ∈ k.head?, Text.isBlank d = false ∧ d ∉ ['[', '/', '&', '|']) :
    outcome (selectorLevel v selector test) s = some (a, k) := by
  have hblanks : Text.skipBlanks k = k := by
    cases k with
    | nil => rfl
    | cons d k => exact Text.skipBlanks_of_not_blank k (hk d rfl).1
  have hchar (e : Char) (he : e ∈ ['[', '/', '&', '|']) :
      outcome (char e) (Text.skipBlanks k) = none := by
    rw [hblanks]
    cases k with
    | nil => simp
    | cons d k =>
      have hd : d ≠ e := fun heq => (hk d rfl).2 (heq ▸ he)
      simp [hd]
  have hstep : outcome (step v selector test) s = some (a, k) := by
    apply (Folds.start ha).outcome
    simp [hchar '[' (by simp)]
  apply outcome_leftAssoc_single ?_ (hchar '|' (by simp))
  apply outcome_leftAssoc_single ?_ (hchar '&' (by simp))
  exact outcome_leftAssoc_single hstep (hchar '/' (by simp))

private theorem outcome_selectorLevel_of_no_atom (ha : outcome (atom v selector) s = none) :
    outcome (selectorLevel v selector test) s = none := by
  simp [selectorLevel, leftAssoc, step, ha]

private theorem outcome_atom_compact :
    outcome (atom v selector) c.text.toList =
      (((outcome numericLiteral c.text.toList).map fun x =>
          (Selector.constant (.literal x.1), x.2)).or
        ((c.iri? v).map fun i => (Selector.property i, []))).map
        fun x => (x.1, Text.skipBlanks x.2) := by
  obtain ⟨d, e, rest, htext⟩ := c.exists_text_eq
  have hne (e : Char) (he : isNameChar e = false ∧ e ≠ ':') : d ≠ e :=
    c.ne_of_mem (by simp [htext]) he
  have hcall : outcome (functionCall selector) c.text.toList = none :=
    functionCall_refuses fun hmem => c.ne_of_mem hmem (by decide) rfl
  have hreverse : outcome (reverseProperty v) c.text.toList = none := by
    simp [htext, reverseProperty, hne '^' (by decide)]
  have hgrouped : outcome (grouped selector) c.text.toList = none := by
    simp [htext, grouped, hne '(' (by decide)]
  have hself : outcome (char '.') c.text.toList = none := by simp [htext, hne '.' (by decide)]
  have hwildcard : outcome (char '*') c.text.toList = none := by simp [htext, hne '*' (by decide)]
  have hblanks := c.skipBlanks_text []
  have hliteral := outcome_literal_compact v c (k := [])
  have hiri := outcome_iri_compact v c (k := []) (by simp)
  rw [List.append_nil] at hblanks hliteral hiri
  rw [atom, outcome_padded, hblanks]
  simp only [outcome_firstOf_cons, outcome_firstOf_nil, outcome_bind, outcome_map, hcall, hreverse,
    hgrouped, hself, hwildcard, hliteral, hiri, Option.bind_none, Option.none_or, Option.or_none,
    Option.map_map]
  rfl

private theorem outcome_selectorLevel_compact (h : opensNumber c.text.toList = false) :
    outcome (selectorLevel v selector test) c.text.toList =
      (c.iri? v).map fun i => (.property i, []) := by
  have hnumber := outcome_numericLiteral_compact c (k := []) h
  rw [List.append_nil] at hnumber
  have hatom : outcome (atom v selector) c.text.toList =
      (c.iri? v).map fun i => (.property i, []) := by
    rw [outcome_atom_compact, hnumber]
    cases c.iri? v <;> rfl
  cases hiri : c.iri? v with
  | none => exact outcome_selectorLevel_of_no_atom v (by rw [hatom, hiri, Option.map_none])
  | some i => exact outcome_selectorLevel_of_atom v (by rw [hatom, hiri, Option.map_some]) (by simp)

private theorem exists_outcome_selectorLevel (h : opensNumber c.text.toList = true) :
    ∃ a d rest, outcome (selectorLevel v selector test) c.text.toList = some (a, d :: rest) ∧
      Text.isBlank d = false := by
  obtain ⟨l, d, rest, hread, hmem⟩ := exists_outcome_numericLiteral c h
  have hblank := c.not_blank hmem
  refine ⟨.constant (.literal l), d, rest, outcome_selectorLevel_of_atom v ?_ ?_, hblank⟩
  · rw [outcome_atom_compact, hread]
    simp [Text.skipBlanks_of_not_blank rest hblank]
  · intro e he
    cases he
    refine ⟨hblank, fun hmark => ?_⟩
    have hother : (['[', '/', '&', '|'].all fun e => !isNameChar e && e ≠ ':') = true := by
      decide +kernel
    exact c.ne_of_mem hmem (by simpa using List.all_eq_true.1 hother d hmark) rfl

end Parser

/-- The whole name as a path is the property that it stands for. -/
theorem Selector.parse_compact (v : Vocabulary) (c : CompactName) :
    (Selector.parse v c.text).toOption = (c.read? v).map .property := by
  apply Option.ext
  intro s
  have hblanks := c.skipBlanks_text []
  rw [List.append_nil] at hblanks
  rw [toOption_eq_some_iff, Selector.parse_eq_ok_iff, Parser.outcome_padded, hblanks,
    Parser.selectorAt, CompactName.read?]
  by_cases h : Parser.opensNumber c.text.toList = true
  · obtain ⟨a, d, rest, hread, hblank⟩ := Parser.exists_outcome_selectorLevel v c h
    rw [hread, if_pos h]
    simp [Text.skipBlanks_of_not_blank rest hblank]
  · rw [Bool.not_eq_true] at h
    rw [Parser.outcome_selectorLevel_compact v c h, h]
    cases c.iri? v <;> simp [Text.skipBlanks]

namespace CommandLine

theorem readNode_compact (v : Vocabulary) (c : CompactName) :
    readNode v c.text = ((c.read? v).map Node.iri).getD (.literal (.plain c.text)) := by
  have hrun := Parser.run_node_compact v c
  unfold readNode
  rw [c.trim_text, ← hrun]
  cases (Parser.node v).run c.text.toList <;> rfl

theorem readIri_compact (v : Vocabulary) (o : Opt) (c : CompactName) :
    readIri v o c.text = .ok ((c.read? v).getD ⟨c.text⟩) := by
  have hcolon : c.text.toList.any (fun d => d = ':' || d = '"') = true :=
    List.any_eq_true.2 ⟨':', by simp [CompactName.toList_text], by decide⟩
  have hquote : c.text.toList.head? ≠ some '"' := by
    intro hhead
    exact c.ne_of_mem (List.mem_of_head? hhead) (by decide) rfl
  have hparse : Iri.parse c.text = .ok ⟨c.text⟩ := c.wellFormed_text
  unfold readIri
  rw [readNode_compact]
  cases c.read? v with
  | some i => rfl
  | none => simp [hcolon, hquote, c.trim_text, hparse, Except.mapError]

end CommandLine

end GraphPath
