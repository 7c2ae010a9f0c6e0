import GraphPath.Proofs.Words

/-!
# What is read of a printed literal

A literal is printed with escapes, and read without: a quoted text goes up to the next quote, and
what is between the quotes is its value. So the printed text of a literal is refused if the value
has a quote, and is otherwise read as the literal whose value is the escaped one.
-/

namespace GraphPath

namespace Parser

variable {α β : Type} {c : Char}

/-- The parser does not read the character: where it stands in a text, it is left. -/
def Leaves (p : Parser α) (c : Char) : Prop :=
  ∀ ⦃s a k⦄, outcome p s = some (a, k) → c ∈ s → c ∈ k

theorem leaves_pure (a : α) : (pure a : Parser α).Leaves c := by
  intro s b k h hc
  cases h
  exact hc

theorem Leaves.bind {p : Parser α} {f : α → Parser β} (hp : p.Leaves c)
    (hf : ∀ a, (f a).Leaves c) : (p >>= f).Leaves c := by
  intro s b k h hc
  rw [outcome_bind, Option.bind_eq_some_iff] at h
  obtain ⟨⟨a, l⟩, ha, hb⟩ := h
  exact hf a hb (hp ha hc)

private theorem Leaves.map {p : Parser α} (hp : p.Leaves c) (f : α → β) : (f <$> p).Leaves c := by
  rw [map_eq_pure_bind]
  exact hp.bind fun a => leaves_pure (f a)

private theorem Leaves.either {p q : Parser α} (hp : p.Leaves c) (hq : q.Leaves c) :
    (either p q).Leaves c := by
  intro s a k h hc
  rw [outcome_either, Option.or_eq_some_iff] at h
  rcases h with h | ⟨-, h⟩
  · exact hp h hc
  · exact hq h hc

theorem Leaves.optional {p : Parser α} (hp : p.Leaves c) : (optional p).Leaves c :=
  (hp.map some).either (leaves_pure none)

theorem Leaves.lexeme {p : Parser α} (hp : p.Leaves c) : (lexeme p).Leaves c := hp

private theorem Leaves.checked {p : Parser α} (hp : p.Leaves c) (f : α → Except Reason β) :
    (checked f p).Leaves c := by
  intro s b k h hc
  rw [outcome_checked, Option.bind_eq_some_iff] at h
  obtain ⟨⟨a, l⟩, ha, hb⟩ := h
  obtain ⟨_, -, heq⟩ := Option.map_eq_some_iff.1 hb
  cases heq
  exact hp ha hc

theorem leaves_char {d : Char} (hd : d ≠ c) : (char d).Leaves c := by
  intro s a k h hc
  cases s with
  | nil => cases hc
  | cons e s =>
    rw [outcome_char_cons] at h
    split at h
    · next he =>
      cases h
      subst he
      exact (List.mem_cons.1 hc).resolve_left (Ne.symm hd)
    · cases h

private theorem leaves_chars {ds : List Char} (hds : c ∉ ds) : (chars ds).Leaves c := by
  induction ds with
  | nil => exact leaves_pure ()
  | cons d ds ih =>
    rw [List.mem_cons, not_or] at hds
    exact (leaves_char (Ne.symm hds.1)).bind fun _ => ih hds.2

private theorem mem_dropWhile_of_not {accepts : Char → Bool} (hc : accepts c = false)
    {s : List Char} (hmem : c ∈ s) : c ∈ s.dropWhile accepts := by
  rw [← List.takeWhile_append_dropWhile (p := accepts) (l := s), List.mem_append] at hmem
  refine hmem.resolve_left fun htake => ?_
  rw [List.all_eq_true.1 List.all_takeWhile c htake] at hc
  cases hc

private theorem leaves_span {accepts : Char → Bool} (hc : accepts c = false) :
    (span accepts).Leaves c := by
  intro s a k h hmem
  cases h
  exact mem_dropWhile_of_not hc hmem

theorem leaves_span1 {accepts : Char → Bool} (hc : accepts c = false) :
    (span1 accepts).Leaves c := by
  intro s a k h hmem
  rw [outcome_span1] at h
  split at h
  · cases h
  · cases h
    exact mem_dropWhile_of_not hc hmem

private theorem languageTag_leaves_quote : languageTag.Leaves '"' :=
  ((leaves_span1 (by decide)).map String.ofList).lexeme

private theorem eq_of_run_languageTag {tag read : String}
    (h : languageTag.run tag.toList = .ok read) :
    read = tag := by
  rw [run_eq_ok_iff, languageTag, outcome_lexeme, outcome_map, outcome_span1] at h
  split at h
  · cases h
  · obtain ⟨hread, hrest⟩ := Prod.mk.inj (Option.some.inj h)
    have hall := List.takeWhile_append_dropWhile (p := isTagChar) (l := tag.toList)
    dsimp only at hread hrest
    rw [hrest, List.append_nil] at hall
    rw [← hread, hall, String.ofList_toList]

private theorem iri_leaves_quote (v : Vocabulary) : (iri v).Leaves '"' := by
  apply Leaves.either
  · exact (((leaves_char (by decide)).bind fun _ => (leaves_span1 (by decide)).bind fun _ =>
      (leaves_char (by decide)).bind fun _ => leaves_pure _).checked _).lexeme
  · exact ((leaves_span (by decide)).bind fun _ => (leaves_char (by decide)).bind fun _ =>
      (leaves_span1 (by decide)).bind fun _ => leaves_pure _).lexeme.checked _

private theorem outcome_quotedLiteral_of_quote (v : Vocabulary) {body k : List Char}
    (hbody : '"' ∉ body) (hk : '"' ∈ k) (l : Literal) :
    outcome (quotedLiteral v) ('"' :: (body ++ '"' :: k)) ≠ some (l, []) := by
  intro h
  rw [quotedLiteral, outcome_bind, outcome_quoted hbody, Option.bind_some] at h
  refine List.not_mem_nil (Leaves.bind (Leaves.optional ?_) (fun _ => leaves_pure _) h hk)
  apply Leaves.either
  · exact (leaves_char (by decide)).bind fun _ => languageTag_leaves_quote.bind fun _ =>
      leaves_pure _
  · exact (leaves_chars (by decide)).bind fun _ => (iri_leaves_quote v).bind fun _ =>
      leaves_pure _

end Parser

namespace Literal

theorem escapeChar_eq_self_iff {c : Char} : escapeChar c = [c] ↔
    c ≠ '"' ∧ c ≠ '\\' ∧ c ≠ '\n' ∧ c ≠ '\r' ∧ c ≠ '\t' := by
  unfold escapeChar
  split_ifs <;> simp_all

private theorem length_escapeChar (c : Char) : 1 ≤ (escapeChar c).length := by
  unfold escapeChar
  split_ifs <;> simp

private theorem quote_mem_escapeChar_iff {c : Char} : '"' ∈ escapeChar c ↔ c = '"' := by
  unfold escapeChar
  split_ifs <;> simp_all [eq_comm]

private theorem quote_mem_escaped_iff {s : List Char} : '"' ∈ s.flatMap escapeChar ↔ '"' ∈ s := by
  simp [List.mem_flatMap, quote_mem_escapeChar_iff]

private theorem length_le_escaped (s : List Char) : s.length ≤ (s.flatMap escapeChar).length := by
  induction s with
  | nil => simp
  | cons c s ih =>
    have hc := length_escapeChar c
    rw [List.flatMap_cons, List.length_append, List.length_cons]
    omega

private theorem escaped_eq_self_iff {s : List Char} :
    s.flatMap escapeChar = s ↔ ∀ c ∈ s, escapeChar c = [c] := by
  induction s with
  | nil => simp
  | cons c s ih =>
    rw [List.flatMap_cons, List.forall_mem_cons, ← ih]
    constructor
    · intro h
      have hlength := congrArg List.length h
      have hs := length_le_escaped s
      have hc := length_escapeChar c
      rw [List.length_append, List.length_cons] at hlength
      exact List.append_inj h (by rw [List.length_singleton]; omega)
    · rintro ⟨hc, hs⟩
      rw [hc, hs]
      rfl

/-- The literals that are made from a value: plain, with a tag that is read as one, or with a
checked datatype. -/
inductive MadeFrom (value : String) : Literal → Prop
  | plain : MadeFrom value (.plain value)
  | tagged {tag read : String} (htag : Parser.languageTag.run tag.toList = .ok read) :
    MadeFrom value (.tagged value tag)
  | typed {text : String} {datatype : Iri} (htype : Iri.parse text = .ok datatype) :
    MadeFrom value (.typed value datatype)

private theorem MadeFrom.value_eq {value : String} {l : Literal} (h : MadeFrom value l) :
    l.value = value := by
  cases h with
  | plain => rfl
  | tagged htag => rfl
  | typed htype =>
    unfold Literal.typed
    split <;> rfl

private theorem MadeFrom.canonical {value : String} {l : Literal} (h : MadeFrom value l) :
    l.Canonical := by
  cases h with
  | plain => exact Parser.canonical_plain value
  | @tagged tag read htag =>
    obtain rfl := Parser.eq_of_run_languageTag htag
    obtain ⟨hne, hall⟩ := Parser.yields_word Parser.isTagChar (Parser.run_eq_ok_iff.1 htag)
    exact Parser.canonical_tagged value hne hall
  | typed htype => exact Parser.canonical_typed value (Iri.wellFormed_of_parse htype)

/-- The printed text of a literal is read exactly if its value has no quote, and then with the
escapes in its value. So it is read back exactly if there are none. -/
theorem read_of_printed (v : Vocabulary) {value : String} {l : Literal} (hl : MadeFrom value l) :
    (∀ read, (Parser.quotedLiteral v).run l.render.toList = .ok read ↔
      '"' ∉ value.toList ∧
        read = { l with value := String.ofList (value.toList.flatMap escapeChar) }) ∧
    ((Parser.quotedLiteral v).run l.render.toList = .ok l ↔ l.Unescaped) := by
  have hread : ∀ read, (Parser.quotedLiteral v).run l.render.toList = .ok read ↔
      '"' ∉ value.toList ∧
        read = { l with value := String.ofList (value.toList.flatMap escapeChar) } := by
    intro read
    rw [Parser.run_eq_ok_iff, toList_render, hl.value_eq]
    by_cases hquote : '"' ∈ value.toList
    · obtain ⟨before, behind, hsplit, hfirst⟩ := List.eq_append_cons_of_mem hquote
      -- the text ends at the quote of the first escape
      have hbody : '"' ∉ before.flatMap escapeChar ++ ['\\'] := by
        rw [List.mem_append, quote_mem_escaped_iff]
        simpa using hfirst
      have hrefused := Parser.outcome_quotedLiteral_of_quote v hbody
        (by simp : '"' ∈ behind.flatMap escapeChar ++ '"' :: l.suffix) read
      simpa [hsplit, escapeChar] using hrefused
    · have hbody : '"' ∉ value.toList.flatMap escapeChar := by rwa [quote_mem_escaped_iff]
      have haccepted := Parser.outcome_quotedBody v hl.canonical hbody Parser.endsStep_nil
      rw [List.append_nil] at haccepted
      simp [haccepted, hquote, eq_comm]
  refine ⟨hread, (hread l).trans ?_⟩
  rw [Unescaped, hl.value_eq]
  constructor
  · rintro ⟨-, hself⟩ c hc
    have hvalue : value = String.ofList (value.toList.flatMap escapeChar) :=
      hl.value_eq.symm.trans (congrArg Literal.value hself)
    have hescaped := congrArg String.toList hvalue
    rw [String.toList_ofList] at hescaped
    exact escapeChar_eq_self_iff.1 (escaped_eq_self_iff.1 hescaped.symm c hc)
  · intro hplain
    have hescaped := escaped_eq_self_iff.2 fun c hc => escapeChar_eq_self_iff.2 (hplain c hc)
    refine ⟨fun hquote => (hplain _ hquote).1 rfl, ?_⟩
    rw [hescaped, String.ofList_toList, ← hl.value_eq]

/-- A tag in capitals is read back, a datatype with a value that has a line break is not, and a
plain text with a quote is refused. -/
theorem read_of_printed_each_kind :
    let read := fun l : Literal => (Parser.quotedLiteral .common).run l.render.toList
    let datatype : Iri := ⟨"http://e/D"⟩
    read (.tagged "chat noir" "FR") = .ok (.tagged "chat noir" "FR") ∧
      read (.typed "one\ntwo" datatype) = .ok (.typed "one\\ntwo" datatype) ∧
      ∀ l, read (.plain "say \"hi\"") ≠ .ok l := by
  intro read datatype
  have htag : Parser.languageTag.run "FR".toList = .ok "FR" := by decide +kernel
  have htype : Iri.parse "http://e/D" = .ok datatype := by decide +kernel
  have htagged := read_of_printed .common (MadeFrom.tagged htag : MadeFrom "chat noir" _)
  have htyped := read_of_printed .common (MadeFrom.typed htype : MadeFrom "one\ntwo" _)
  have hplain := read_of_printed .common (MadeFrom.plain : MadeFrom "say \"hi\"" _)
  refine ⟨htagged.2.2 (by decide), (htyped.1 _).2 (by decide +kernel), fun l h => ?_⟩
  exact absurd ((hplain.1 l).1 h).1 (by decide)

/-- A backslash is printed as two, and read as two. -/
theorem printed_backslash_doubled :
    (Parser.quotedLiteral .common).run (plain "a\\b").render.toList = .ok (plain "a\\\\b") := by
  decide +kernel

end Literal

end GraphPath
