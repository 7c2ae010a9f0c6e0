import GraphPath.Parser.Token
import GraphPath.Pattern.Basic
import GraphPath.Settings.Basic
import Mathlib.Data.List.Basic

/-!
# Spelling of terms

Which names, IRIs and literals are well formed, and that the text of a well-formed term can be cut
off from the text that follows it, where that starts with a character that ends a term.
-/

namespace GraphPath

namespace Text

/-- The characters that stand after a term in a query. -/
def endsTerm (c : Char) : Bool := c = ' ' || c = ')' || c = ',' || c = '\n'

/-- The text is empty or starts with a character that ends a term. -/
def Ended (k : List Char) : Prop := ∀ c ∈ k.head?, endsTerm c = true

@[simp]
theorem ended_nil : Ended [] := by simp [Ended]

@[simp]
theorem ended_cons (c : Char) (k : List Char) : Ended (c :: k) ↔ endsTerm c = true := by
  simp [Ended]

theorem takeWhile_append {p : Char → Bool} {a k : List Char} (ha : ∀ c ∈ a, p c = true)
    (hk : ∀ c ∈ k.head?, p c = false) : (a ++ k).takeWhile p = a := by
  rw [List.takeWhile_append_of_pos ha]
  cases k with
  | nil => simp
  | cons c k => simp [hk c rfl]

theorem dropWhile_append {p : Char → Bool} {a k : List Char} (ha : ∀ c ∈ a, p c = true)
    (hk : ∀ c ∈ k.head?, p c = false) : (a ++ k).dropWhile p = k := by
  rw [List.dropWhile_append_of_pos ha]
  cases k with
  | nil => rfl
  | cons c k => simp [hk c rfl]

theorem cut_class {p : Char → Bool} {a b k l : List Char} (ha : ∀ c ∈ a, p c = true)
    (hb : ∀ c ∈ b, p c = true) (hk : ∀ c ∈ k.head?, p c = false)
    (hl : ∀ c ∈ l.head?, p c = false) (h : a ++ k = b ++ l) : a = b ∧ k = l := by
  have hab : a = b := by
    rw [← takeWhile_append ha hk, h, takeWhile_append hb hl]
  subst hab
  exact ⟨rfl, List.append_cancel_left h⟩

private theorem Ended.ne_cons {k : List Char} (hk : Ended k) {c : Char} (hc : endsTerm c = false)
    (l : List Char) : k ≠ c :: l := by
  intro h
  rw [h, ended_cons, hc] at hk
  cases hk

theorem Ended.not_class {k : List Char} (hk : Ended k) {p : Char → Bool}
    (hp : ∀ c, endsTerm c = true → p c = false) : ∀ c ∈ k.head?, p c = false := by
  intro c hc
  exact hp c (hk c hc)

theorem toLower_eq_iff {c d : Char} (hd : d.isAlpha = false) : c.toLower = d ↔ c = d := by
  unfold Char.isAlpha Char.isUpper Char.isLower at hd
  simp only [Char.isValue, Char.reduceVal, ge_iff_le, UInt32.le_iff_toNat_le, UInt32.reduceToNat,
    Char.toNat_val, Bool.decide_and, Bool.or_eq_false_iff, Bool.and_eq_false_imp,
    decide_eq_true_eq, decide_eq_false_iff_not, Nat.not_le] at hd
  unfold Char.toLower
  split
  · next hupper =>
    simp only [Char.isValue, Char.reduceVal, ge_iff_le, UInt32.le_iff_toNat_le,
      UInt32.reduceToNat, Char.toNat_val] at hupper
    -- A capital letter becomes a small one, and the other character is neither.
    refine iff_of_false ?_ ?_
    · rintro rfl
      simp only [Char.isValue, Char.reduceVal, UInt32.reduceSub, Char.toNat_mk, UInt32.toNat_add,
        Char.toNat_val, UInt32.reduceToNat, Nat.reducePow] at hd
      omega
    · rintro rfl
      omega
  · rfl

end Text

/-- The name is made of one or more ASCII letters, digits and underscores. -/
def Variable.WellNamed (v : Variable) : Prop :=
  v.name ≠ "" ∧ v.name.toList.all Settings.isVariableChar = true

/-- The text can be read as an IRI. -/
def Iri.WellFormed (i : Iri) : Prop := Iri.parse i.text = .ok i

/-- The literal has a language or a datatype or neither, and each in its form. -/
structure Literal.WellFormed (l : Literal) : Prop where
  single : l.language = none ∨ l.datatype = none
  language : ∀ tag ∈ l.language, tag ≠ "" ∧ tag.toList.all Parser.isTagChar = true
  datatype : ∀ i ∈ l.datatype, i.WellFormed

def Term.WellFormed : Term → Prop
  | .var v => v.WellNamed
  | .node (.iri i) => i.WellFormed
  | .node (.literal l) => l.WellFormed

instance (v : Variable) : Decidable v.WellNamed := inferInstanceAs (Decidable (_ ∧ _))

instance (i : Iri) : Decidable i.WellFormed :=
  match h : Iri.parse i.text with
  | .error e => isFalse (by simp [Iri.WellFormed, h])
  | .ok j => decidable_of_iff (j = i) (by simp [Iri.WellFormed, h])

instance (l : Literal) : Decidable l.WellFormed :=
  decidable_of_iff ((l.language = none ∨ l.datatype = none) ∧
    (∀ tag ∈ l.language, tag ≠ "" ∧ tag.toList.all Parser.isTagChar = true) ∧
      ∀ i ∈ l.datatype, i.WellFormed)
    ⟨fun h => ⟨h.1, h.2.1, h.2.2⟩, fun h => ⟨h.single, h.language, h.datatype⟩⟩

instance : (t : Term) → Decidable t.WellFormed
  | .var v => inferInstanceAs (Decidable v.WellNamed)
  | .node (.iri i) => inferInstanceAs (Decidable i.WellFormed)
  | .node (.literal l) => inferInstanceAs (Decidable l.WellFormed)

theorem Iri.WellFormed.not_forbidden {i : Iri} (h : i.WellFormed) :
    ∀ c ∈ i.text.toList, isForbidden c = false := by
  intro c hc
  unfold WellFormed parse at h
  split at h
  · cases h
  · split at h
    · cases h
    · next hfind => simpa using List.find?_eq_none.1 hfind c hc

theorem Iri.WellFormed.flatMap_encodeChar {i : Iri} (h : i.WellFormed) :
    i.text.toList.flatMap encodeChar = i.text.toList := by
  have hplain : i.text.toList.flatMap encodeChar = i.text.toList.flatMap fun c => [c] := by
    apply List.flatMap_congr
    intro c hc
    simp [encodeChar, h.not_forbidden c hc]
  rw [hplain, List.flatMap_singleton']

theorem Iri.WellFormed.toList_render {i : Iri} (h : i.WellFormed) :
    i.render.toList = '<' :: (i.text.toList ++ ['>']) := by
  simp [render, h.flatMap_encodeChar]

theorem Iri.cut {i j : Iri} (hi : i.WellFormed) (hj : j.WellFormed) {k l : List Char}
    (h : i.render.toList ++ k = j.render.toList ++ l) : i = j ∧ k = l := by
  rw [hi.toList_render, hj.toList_render] at h
  simp only [List.cons_append, List.append_assoc, List.cons.injEq, true_and, List.nil_append] at h
  have hcut := Text.cut_class (p := fun c => !isForbidden c)
    (by simpa using hi.not_forbidden) (by simpa using hj.not_forbidden)
    (by simp; decide) (by simp; decide) h
  exact ⟨by cases i; cases j; simpa using String.toList_inj.1 hcut.1, by simpa using hcut.2⟩

theorem Text.isVariableChar_of_endsTerm {c : Char} (h : Text.endsTerm c = true) :
    Settings.isVariableChar c = false := by
  simp only [Text.endsTerm, Bool.or_eq_true, decide_eq_true_eq] at h
  rcases h with ((rfl | rfl) | rfl) | rfl <;> decide

theorem Text.isTagChar_of_endsTerm {c : Char} (h : Text.endsTerm c = true) :
    Parser.isTagChar c = false := by
  simp only [Text.endsTerm, Bool.or_eq_true, decide_eq_true_eq] at h
  rcases h with ((rfl | rfl) | rfl) | rfl <;> decide

theorem Variable.cut {v w : Variable} (hv : v.WellNamed) (hw : w.WellNamed) {k l : List Char}
    (hk : Text.Ended k) (hl : Text.Ended l)
    (h : v.render.toList ++ k = w.render.toList ++ l) : v = w ∧ k = l := by
  have hclass : ∀ c, Text.endsTerm c = true → Settings.isVariableChar c = false :=
    fun _ => Text.isVariableChar_of_endsTerm
  simp only [render, String.toList_append, List.append_assoc, List.append_cancel_left_eq] at h
  have hcut := Text.cut_class (List.all_eq_true.1 hv.2) (List.all_eq_true.1 hw.2)
    (hk.not_class hclass) (hl.not_class hclass) h
  exact ⟨by cases v; cases w; simpa using String.toList_inj.1 hcut.1, hcut.2⟩

private theorem Literal.escapeChar_append_ne (c : Char) (x y : List Char) :
    escapeChar c ++ x ≠ '"' :: y := by
  unfold escapeChar
  split_ifs <;> simp_all

private theorem Literal.escapeChar_append_inj {c d : Char} {x y : List Char}
    (h : escapeChar c ++ x = escapeChar d ++ y) : c = d ∧ x = y := by
  unfold escapeChar at h
  split_ifs at h <;> grind

private theorem Literal.cut_escaped {a b k l : List Char}
    (h : a.flatMap escapeChar ++ '"' :: k = b.flatMap escapeChar ++ '"' :: l) : a = b ∧ k = l := by
  induction a generalizing b with
  | nil =>
    cases b with
    | nil => simpa using h
    | cons d b =>
      simp only [List.flatMap_nil, List.flatMap_cons, List.nil_append, List.append_assoc] at h
      exact absurd h.symm (escapeChar_append_ne d _ _)
  | cons c a ih =>
    cases b with
    | nil =>
      simp only [List.flatMap_nil, List.flatMap_cons, List.nil_append, List.append_assoc] at h
      exact absurd h (escapeChar_append_ne c _ _)
    | cons d b =>
      simp only [List.flatMap_cons, List.append_assoc] at h
      have hhead := escapeChar_append_inj h
      have htail := ih hhead.2
      exact ⟨by rw [hhead.1, htail.1], htail.2⟩

/-- What stands after the closing quote of a literal. -/
def Literal.suffix (l : Literal) : List Char :=
  match l.language, l.datatype with
  | some tag, _ => '@' :: tag.toList
  | none, some datatype => '^' :: '^' :: datatype.render.toList
  | none, none => []

theorem Literal.toList_render (l : Literal) :
    l.render.toList = '"' :: (l.value.toList.flatMap escapeChar ++ '"' :: l.suffix) := by
  unfold render suffix
  split <;> simp_all

theorem Literal.WellFormed.forms {l : Literal} (h : l.WellFormed) :
    (l.language = none ∧ l.datatype = none) ∨ (∃ tag, l.language = some tag ∧ l.datatype = none) ∨
      ∃ i, l.language = none ∧ l.datatype = some i := by
  obtain ⟨v, language, datatype⟩ := l
  have hsingle := h.single
  cases language <;> cases datatype <;> simp_all

private theorem Literal.cut_tag {tag tag' : String} (h : tag.toList.all Parser.isTagChar = true)
    (h' : tag'.toList.all Parser.isTagChar = true) {x y : List Char} (hx : Text.Ended x)
    (hy : Text.Ended y) (heq : tag.toList ++ x = tag'.toList ++ y) : tag = tag' ∧ x = y := by
  have hclass : ∀ c, Text.endsTerm c = true → Parser.isTagChar c = false :=
    fun _ => Text.isTagChar_of_endsTerm
  have hcut := Text.cut_class (List.all_eq_true.1 h) (List.all_eq_true.1 h')
    (hx.not_class hclass) (hy.not_class hclass) heq
  exact ⟨String.toList_inj.1 hcut.1, hcut.2⟩

private theorem Literal.cut_suffix {l m : Literal} (hl : l.WellFormed) (hm : m.WellFormed)
    {x y : List Char} (hx : Text.Ended x) (hy : Text.Ended y)
    (h : l.suffix ++ x = m.suffix ++ y) :
    (l.language = m.language ∧ l.datatype = m.datatype) ∧ x = y := by
  unfold suffix at h
  rcases hl.forms with ⟨hlang, htype⟩ | ⟨tag, hlang, htype⟩ | ⟨i, hlang, htype⟩ <;>
    rcases hm.forms with ⟨hlang', htype'⟩ | ⟨tag', hlang', htype'⟩ | ⟨j, hlang', htype'⟩ <;>
    simp only [hlang, htype, hlang', htype', List.nil_append, List.cons_append, List.cons.injEq,
      true_and] at h ⊢
  · exact h
  · exact absurd h (hx.ne_cons rfl _)
  · exact absurd h (hx.ne_cons rfl _)
  · exact absurd h.symm (hy.ne_cons rfl _)
  · have hcut := cut_tag (hl.language _ hlang).2 (hm.language _ hlang').2 hx hy h
    simpa using hcut
  · cases h.1
  · exact absurd h.symm (hy.ne_cons rfl _)
  · cases h.1
  · have hcut := Iri.cut (hl.datatype _ htype) (hm.datatype _ htype') h
    simpa using hcut

private theorem Literal.cut {l m : Literal} (hl : l.WellFormed) (hm : m.WellFormed)
    {x y : List Char} (hx : Text.Ended x) (hy : Text.Ended y)
    (h : l.render.toList ++ x = m.render.toList ++ y) : l = m ∧ x = y := by
  simp only [toList_render, List.cons_append, List.append_assoc, List.cons.injEq, true_and] at h
  have hvalue := cut_escaped h
  have hsuffix := cut_suffix hl hm hx hy hvalue.2
  obtain ⟨v, tag, type⟩ := l
  obtain ⟨w, tag', type'⟩ := m
  exact ⟨by simp_all [String.toList_inj], hsuffix.2⟩

/-- The first character of a term tells a variable, an IRI and a literal apart. -/
def Term.lead : Term → Char
  | .var _ => '?'
  | .node (.iri _) => '<'
  | .node (.literal _) => '"'

theorem Term.toList_render (t : Term) : ∃ rest, t.render.toList = t.lead :: rest := by
  match t with
  | .var v => exact ⟨v.name.toList, by simp [render, Variable.render, lead]⟩
  | .node (.iri i) => exact ⟨_, by simp [render, Node.render, Iri.render, lead]; rfl⟩
  | .node (.literal l) => exact ⟨_, by simp [render, Node.render, Literal.toList_render, lead]; rfl⟩

theorem Term.cut {t u : Term} (ht : t.WellFormed) (hu : u.WellFormed) {k l : List Char}
    (hk : Text.Ended k) (hl : Text.Ended l)
    (h : t.render.toList ++ k = u.render.toList ++ l) : t = u ∧ k = l := by
  have hlead : t.lead = u.lead := by
    obtain ⟨rest, hrest⟩ := t.toList_render
    obtain ⟨rest', hrest'⟩ := u.toList_render
    rw [hrest, hrest'] at h
    exact (List.cons.inj h).1
  rcases t with v | i | a <;> rcases u with w | j | b
  case var.var =>
    have hcut := Variable.cut ht hu hk hl h
    simpa using hcut
  case node.iri.node.iri =>
    have hcut := Iri.cut ht hu h
    simpa using hcut
  case node.literal.node.literal =>
    have hcut := Literal.cut ht hu hk hl h
    simpa using hcut
  all_goals simp [lead] at hlead

end GraphPath
