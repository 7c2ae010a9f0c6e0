import GraphPath.Proofs.Words

/-!
# IRIs between brackets

Whatever the text of an IRI is, nothing of it can end the brackets it is printed in: what may not
stand there is percent-encoded, and the code itself is made of characters that may. So the printed
text is read as an IRI, namely the encoded one, which is printed in the same way, and which is the
IRI that was printed exactly if that one could have been read from its text.
-/

namespace GraphPath

namespace Iri

/-- The IRI with the characters that may not stand in it percent-encoded. -/
def encoded (i : Iri) : Iri := ⟨String.ofList (i.text.toList.flatMap encodeChar)⟩

private theorem render_eq (i : Iri) : i.render = "<" ++ i.encoded.text ++ ">" := rfl

theorem toList_render (i : Iri) : i.render.toList = '<' :: (i.encoded.text.toList ++ ['>']) := by
  simp [render_eq]

/-! ## Characters -/

private theorem isForbidden_upperHexDigit {n : Nat} (hn : n < 16) :
    isForbidden (upperHexDigit n) = false := by
  have hall : ∀ m : Fin 16, isForbidden (upperHexDigit m) = false := by decide
  exact hall ⟨n, hn⟩

private theorem isForbidden_of_mem_percentByte {b : UInt8} {c : Char} (h : c ∈ percentByte b) :
    isForbidden c = false := by
  have hb : b.toNat < 256 := b.toNat_lt
  simp only [percentByte, List.mem_cons, List.not_mem_nil, or_false] at h
  rcases h with rfl | rfl | rfl
  · decide
  · exact isForbidden_upperHexDigit (by omega)
  · exact isForbidden_upperHexDigit (by omega)

private theorem isForbidden_of_mem_encodeChar {c d : Char} (h : c ∈ encodeChar d) :
    isForbidden c = false := by
  unfold encodeChar at h
  split at h
  · obtain ⟨b, -, hc⟩ := List.mem_flatMap.1 h
    exact isForbidden_of_mem_percentByte hc
  · next hd =>
    obtain rfl := List.mem_singleton.1 h
    simpa using hd

private theorem encodeChar_ne_nil (c : Char) : encodeChar c ≠ [] := by
  unfold encodeChar
  split
  · have hbytes : String.utf8EncodeChar c ≠ [] := by
      intro hnil
      have hlength := String.length_utf8EncodeChar c
      rw [hnil] at hlength
      exact absurd hlength.symm (Nat.ne_of_gt c.utf8Size_pos)
    intro hnil
    obtain ⟨b, rest, hb⟩ := List.exists_cons_of_ne_nil hbytes
    rw [hb] at hnil
    cases hnil
  · simp

/-! ## Texts -/

private theorem wellFormed_iff {i : Iri} :
    i.WellFormed ↔ i.text ≠ "" ∧ ∀ c ∈ i.text.toList, isForbidden c = false := by
  constructor
  · intro h
    refine ⟨?_, h.not_forbidden⟩
    intro hempty
    simp [WellFormed, parse, hempty] at h
  · rintro ⟨hne, hall⟩
    have hfind : i.text.toList.find? isForbidden = none :=
      List.find?_eq_none.2 fun c hc => by simp [hall c hc]
    simp [WellFormed, parse, hne, hfind]

private theorem exists_parse_iff {s : String} : (∃ i, parse s = .ok i) ↔ WellFormed ⟨s⟩ := by
  constructor
  · rintro ⟨i, hi⟩
    have hwell := wellFormed_of_parse hi
    rwa [← text_of_parse hi]
  · exact fun h => ⟨⟨s⟩, h⟩

theorem not_forbidden_encoded (i : Iri) : ∀ c ∈ i.encoded.text.toList, isForbidden c = false := by
  intro c hc
  rw [encoded, String.toList_ofList] at hc
  obtain ⟨d, -, hd⟩ := List.mem_flatMap.1 hc
  exact isForbidden_of_mem_encodeChar hd

private theorem encoded_text_ne_empty {i : Iri} (h : i.text ≠ "") : i.encoded.text ≠ "" := by
  intro hempty
  have hnil := congrArg String.toList hempty
  rw [encoded, String.toList_ofList, String.toList_empty, List.flatMap_eq_nil_iff] at hnil
  obtain ⟨c, rest, hc⟩ := List.exists_cons_of_ne_nil (mt String.toList_eq_nil_iff.1 h)
  exact encodeChar_ne_nil c (hnil c (hc ▸ List.mem_cons_self))

private theorem wellFormed_encoded {i : Iri} (h : i.text ≠ "") : i.encoded.WellFormed :=
  wellFormed_iff.2 ⟨encoded_text_ne_empty h, i.not_forbidden_encoded⟩

private theorem WellFormed.encoded_eq {i : Iri} (h : i.WellFormed) : i.encoded = i := by
  rw [encoded, h.flatMap_encodeChar, String.ofList_toList]

private theorem encoded_eq_iff {i : Iri} (h : i.text ≠ "") : i.encoded = i ↔ i.WellFormed := by
  constructor
  · intro heq
    rw [← heq]
    exact wellFormed_encoded h
  · exact WellFormed.encoded_eq

private theorem render_encoded {i : Iri} (h : i.text ≠ "") : i.encoded.render = i.render := by
  rw [render_eq, render_eq, (wellFormed_encoded h).encoded_eq]

/-- The printed text of an IRI stays within its brackets, and is read as the encoded IRI. -/
theorem printed_in_brackets (s : String) :
    let i : Iri := ⟨s⟩
    (∃ body : String, i.render = "<" ++ body ++ ">" ∧
      ∀ c ∈ body.toList, isForbidden c = false) ∧
    (s ≠ "" → ∃ t, Parser.bracketedIri.run i.render.toList = .ok t ∧ t.render = i.render ∧
      (t.text = s ↔ ∃ accepted, parse s = .ok accepted)) := by
  intro i
  refine ⟨⟨i.encoded.text, i.render_eq, i.not_forbidden_encoded⟩, fun hne => ?_⟩
  refine ⟨i.encoded, ?_, render_encoded hne, ?_⟩
  · have hread := Parser.outcome_bracketedIri (wellFormed_encoded hne : i.encoded.WellFormed) []
    rw [List.append_nil, render_encoded hne] at hread
    exact Parser.run_eq_ok_iff.2 hread
  · rw [exists_parse_iff, ← encoded_eq_iff hne]
    exact ⟨fun htext => congrArg Iri.mk htext, fun heq => congrArg Iri.text heq⟩

/-- A text with a bracket and blanks is read as another IRI, and one with other letters as
itself. -/
theorem printed_in_brackets_hostile :
    let hostile := "http://g> WHERE \x7b ?x ?p ?o \x7d #"
    let foreign := "http://e/é"
    (∃ t, Parser.bracketedIri.run (Iri.mk hostile).render.toList = .ok t ∧
      t.render = (Iri.mk hostile).render ∧ t.text ≠ hostile) ∧
    ∃ t, Parser.bracketedIri.run (Iri.mk foreign).render.toList = .ok t ∧ t.text = foreign := by
  intro hostile foreign
  obtain ⟨t, hread, hrender, htext⟩ := (printed_in_brackets hostile).2 (by decide)
  obtain ⟨t', hread', -, htext'⟩ := (printed_in_brackets foreign).2 (by decide)
  have hrefused : (parse hostile).isOk = false := by decide +kernel
  refine ⟨⟨t, hread, hrender, fun heq => ?_⟩, t', hread', htext'.2 ⟨⟨foreign⟩, by decide +kernel⟩⟩
  obtain ⟨i, hi⟩ := htext.1 heq
  rw [hi] at hrefused
  cases hrefused

end Iri

end GraphPath
