import GraphPath.Proofs.AnswerOrder
import GraphPath.Store.Value

/-!
# Coherence of the comparisons

The six comparisons of two nodes take different ways: numbers are compared by value, and of other
literals the order is that of their texts while equality is identity. The comparisons of two nodes
that can be put in order are those of one order unless the two are tied, that is different with the
same text. Literals as they are made are tied only if they are texts in different languages.
-/

namespace GraphPath

/-! ## Literals as they are made -/

namespace Literal

/-- The three kinds of literal. -/
inductive Made : Literal → Prop
  | plain (value : String) : Made (.plain value)
  | tagged (value tag : String) : Made (.tagged value tag)
  | typed (value : String) (datatype : Iri) : Made (.typed value datatype)

private theorem Made.single {l : Literal} (hl : l.Made) :
    l.language = none ∨ l.datatype = none := by
  cases hl with
  | plain value => exact Or.inl rfl
  | tagged value tag => exact Or.inr rfl
  | typed value datatype =>
    unfold Literal.typed
    split <;> exact Or.inl rfl

private theorem Made.datatype_ne {l : Literal} (hl : l.Made) : l.datatype ≠ some Iri.xsdString := by
  cases hl with
  | plain value => simp [Literal.plain]
  | tagged value tag => simp [Literal.tagged]
  | typed value datatype =>
    unfold Literal.typed
    split
    case isTrue => simp [Literal.plain]
    case isFalse hne => simpa using hne

private theorem Made.effectiveDatatype_of_language {l : Literal} (hl : l.Made)
    (hlanguage : l.language ≠ none) : l.effectiveDatatype = Iri.langString := by
  obtain ⟨tag, htag⟩ := Option.ne_none_iff_exists'.1 hlanguage
  have hdatatype : l.datatype = none := hl.single.resolve_left hlanguage
  simp [effectiveDatatype, htag, hdatatype]

private theorem Made.datatype_eq {a b : Literal} (ha : a.Made) (hb : b.Made)
    (hlanguage : a.language = b.language) (htype : a.effectiveDatatype = b.effectiveDatatype) :
    a.datatype = b.datatype := by
  have hane := ha.datatype_ne
  have hbne := hb.datatype_ne
  cases hl : a.language with
  | some tag =>
    have hnone : a.datatype = none := ha.single.resolve_left (by simp [hl])
    rw [hnone, hb.single.resolve_left (by simp [← hlanguage, hl])]
  | none =>
    have hl' : b.language = none := hlanguage ▸ hl
    cases hd : a.datatype <;> cases hd' : b.datatype <;>
      simp_all [effectiveDatatype]

private theorem number?_of_langString {l : Literal} (h : l.effectiveDatatype = Iri.langString) :
    l.number? = none := by
  cases hd : l.datatype with
  | none => simp [number?, hd]
  | some datatype =>
    have hlang : datatype = Iri.langString := by simpa [effectiveDatatype, hd] using h
    have hother : Iri.langString ∉ Iri.numericTypes := by decide
    simp [number?, hd, hlang, hother]

end Literal

/-! ## Operators and the order that they ask for -/

namespace Comparison

/-- The operator that asks the same of two operands in the other order. -/
def converse : Comparison → Comparison
  | eq => eq
  | ne => ne
  | lt => gt
  | le => ge
  | gt => lt
  | ge => le

/-- Whether the operator asks for an order, and not only whether two nodes are equal. -/
def isOrder : Comparison → Bool
  | eq => false
  | ne => false
  | _ => true

private theorem admits_converse (op : Comparison) (o : Ordering) :
    op.converse.admits o.swap = op.admits o := by
  cases op <;> cases o <;> rfl

private theorem admits_ne (o : Ordering) : ne.admits o = !eq.admits o := by
  cases o <;> rfl

private theorem apply_of_numbers (op : Comparison) {l r : Node} {x y : Binary64}
    (hl : l.number? = some x) (hr : r.number? = some y) :
    op.apply l r = (x.compare? y).map op.admits := by
  simp [apply, hl, hr]

section

variable {l r : Node} (h : l.number? = none ∨ r.number? = none)
include h

private theorem eq_apply : eq.apply l r = some (decide (l = r)) := by
  unfold apply
  split
  case h_1 hl hr => simp [hl, hr] at h
  case h_2 => rfl

private theorem ne_apply : ne.apply l r = some (decide (l ≠ r)) := by
  unfold apply
  split
  case h_1 hl hr => simp [hl, hr] at h
  case h_2 => rfl

private theorem apply_of_isOrder {op : Comparison} (hop : op.isOrder = true) :
    op.apply l r = (textOrder? l r).map op.admits := by
  unfold apply
  split
  case h_1 hl hr => simp [hl, hr] at h
  case h_2 => cases op <;> first | rfl | cases hop

end

private theorem textOrder?_swap (l r : Node) : textOrder? r l = (textOrder? l r).map .swap := by
  cases l with
  | iri i => cases r <;> rfl
  | literal a =>
    cases r with
    | iri j => rfl
    | literal b =>
      have htext : compare b.value a.value = (compare a.value b.value).swap :=
        Std.OrientedCmp.eq_swap
      by_cases htype : a.effectiveDatatype = b.effectiveDatatype
      · simp [textOrder?, htype, htext]
      · simp [textOrder?, htype, Ne.symm htype]

private theorem map_admits_converse (op : Comparison) (o : Option Ordering) :
    (o.map .swap).map op.converse.admits = o.map op.admits := by
  rw [Option.map_map]
  congr 1
  funext x
  exact op.admits_converse x

private theorem apply_converse (op : Comparison) (l r : Node) :
    op.converse.apply r l = op.apply l r := by
  by_cases hnumbers : l.number? = none ∨ r.number? = none
  · have hnumbers' : r.number? = none ∨ l.number? = none := hnumbers.symm
    cases op with
    | eq => simp only [converse, eq_apply hnumbers, eq_apply hnumbers', eq_comm]
    | ne => simp only [converse, ne_apply hnumbers, ne_apply hnumbers', ne_comm]
    | lt | le | gt | ge =>
      rw [apply_of_isOrder hnumbers' rfl, apply_of_isOrder hnumbers rfl, textOrder?_swap,
        map_admits_converse]
  · push Not at hnumbers
    obtain ⟨x, hx⟩ := Option.ne_none_iff_exists'.1 hnumbers.1
    obtain ⟨y, hy⟩ := Option.ne_none_iff_exists'.1 hnumbers.2
    rw [apply_of_numbers _ hy hx, apply_of_numbers _ hx hy, Binary64.compare?_swap,
      map_admits_converse]

private theorem ne_apply_eq_not (l r : Node) : ne.apply l r = (eq.apply l r).map not := by
  by_cases hnumbers : l.number? = none ∨ r.number? = none
  · simp [ne_apply hnumbers, eq_apply hnumbers]
  · push Not at hnumbers
    obtain ⟨x, hx⟩ := Option.ne_none_iff_exists'.1 hnumbers.1
    obtain ⟨y, hy⟩ := Option.ne_none_iff_exists'.1 hnumbers.2
    rw [apply_of_numbers _ hx hy, apply_of_numbers _ hx hy, Option.map_map]
    congr 1
    funext o
    exact admits_ne o

/-! ## One order for the six operators -/

/-- The operators ask one order of two nodes: one of the three strict answers is true, and the other
two operators allow equality besides. -/
structure Coherent (l r : Node) : Prop where
  exactly_one : ∃! op, op ∈ [lt, eq, gt] ∧ op.apply l r = some true
  le_iff : le.apply l r = some true ↔ lt.apply l r = some true ∨ eq.apply l r = some true
  ge_iff : ge.apply l r = some true ↔ gt.apply l r = some true ∨ eq.apply l r = some true

/-- Different nodes with one text, of which one at least is no number. -/
def Tied (l r : Node) : Prop :=
  l ≠ r ∧ l.text = r.text ∧ (l.number? = none ∨ r.number? = none)

/-- The operator that holds of operands in a given order and of no others. -/
def strict : Ordering → Comparison
  | .lt => lt
  | .eq => eq
  | .gt => gt

private theorem admits_iff_eq_strict {op : Comparison} (hop : op ∈ [lt, eq, gt]) (o : Ordering) :
    op.admits o = true ↔ op = strict o := by
  cases op <;> cases o <;> simp_all [admits, strict]

private theorem coherent_of_order {l r : Node} {o : Ordering}
    (h : ∀ op : Comparison, op.apply l r = some (op.admits o)) : Coherent l r := by
  constructor
  · simp only [h, Option.some.injEq]
    have hstrict : strict o ∈ [lt, eq, gt] := by cases o <;> decide
    refine ⟨strict o, ⟨hstrict, (admits_iff_eq_strict hstrict o).2 rfl⟩, ?_⟩
    intro op hop
    exact (admits_iff_eq_strict hop.1 o).1 hop.2
  · cases o <;> simp [h, admits]
  · cases o <;> simp [h, admits]

private theorem textOrder?_eq_some {l r : Node} {o : Ordering} (h : textOrder? l r = some o) :
    o = compare l.text r.text ∧ ∃ a b, l = .literal a ∧ r = .literal b ∧
      a.effectiveDatatype = b.effectiveDatatype := by
  cases l with
  | iri i => cases h
  | literal a =>
    cases r with
    | iri j => cases h
    | literal b =>
      by_cases htype : a.effectiveDatatype = b.effectiveDatatype
      · rw [textOrder?, if_pos htype] at h
        exact ⟨(Option.some.inj h).symm, a, b, rfl, rfl, htype⟩
      · rw [textOrder?, if_neg htype] at h
        cases h

private theorem order_of_isSome {l r : Node} (h : (lt.apply l r).isSome) :
    (∃ x y o, l.number? = some x ∧ r.number? = some y ∧ x.compare? y = some o) ∨
      (l.number? = none ∨ r.number? = none) ∧
        textOrder? l r = some (compare l.text r.text) := by
  by_cases hnumbers : l.number? = none ∨ r.number? = none
  · rw [apply_of_isOrder hnumbers rfl, Option.isSome_map] at h
    obtain ⟨o, ho⟩ := Option.isSome_iff_exists.1 h
    exact Or.inr ⟨hnumbers, (textOrder?_eq_some ho).1 ▸ ho⟩
  · push Not at hnumbers
    obtain ⟨x, hx⟩ := Option.ne_none_iff_exists'.1 hnumbers.1
    obtain ⟨y, hy⟩ := Option.ne_none_iff_exists'.1 hnumbers.2
    rw [apply_of_numbers _ hx hy, Option.isSome_map] at h
    obtain ⟨o, ho⟩ := Option.isSome_iff_exists.1 h
    exact Or.inl ⟨x, y, o, hx, hy, ho⟩

private theorem exists_order_of_not_tied {l r : Node} (h : (lt.apply l r).isSome)
    (htied : ¬ Tied l r) :
    ∃ o, ∀ op : Comparison, op.apply l r = some (op.admits o) := by
  obtain ⟨x, y, o, hx, hy, ho⟩ | ⟨hnumbers, horder⟩ := order_of_isSome h
  · refine ⟨o, fun op => ?_⟩
    rw [apply_of_numbers op hx hy, ho, Option.map_some]
  · refine ⟨compare l.text r.text, fun op => ?_⟩
    -- of nodes that are not tied, the same texts are the same node
    have hsame : eq.admits (compare l.text r.text) = decide (l = r) := by
      rw [Bool.eq_iff_iff, decide_eq_true_iff, admits, Ordering.isEq_iff_eq_eq,
        Std.LawfulEqCmp.compare_eq_iff_eq]
      constructor
      · intro htext
        by_contra hne
        exact htied ⟨hne, htext, hnumbers⟩
      · exact congrArg Node.text
    cases op with
    | eq => rw [eq_apply hnumbers, hsame]
    | ne => rw [ne_apply_eq_not, eq_apply hnumbers, ← hsame, Option.map_some, admits_ne]
    | lt | le | gt | ge => rw [apply_of_isOrder hnumbers rfl, horder, Option.map_some]

private theorem apply_of_tied {l r : Node} (h : (lt.apply l r).isSome) (htied : Tied l r)
    (op : Comparison) : op.apply l r = some (decide (op ∈ [ne, le, ge])) := by
  obtain ⟨hne, htext, hnumbers⟩ := htied
  obtain ⟨x, y, o, hx, hy, ho⟩ | ⟨-, horder⟩ := order_of_isSome h
  · simp [hx, hy] at hnumbers
  · have heq : compare l.text r.text = .eq := Std.LawfulEqCmp.compare_eq_iff_eq.2 htext
    cases op with
    | eq => simp [eq_apply hnumbers, hne]
    | ne => simp [ne_apply_eq_not, eq_apply hnumbers, hne]
    | lt | le | gt | ge =>
      rw [apply_of_isOrder hnumbers rfl, horder, heq]
      rfl

private theorem coherent_iff_not_tied {l r : Node} (h : (lt.apply l r).isSome) :
    Coherent l r ↔ ¬ Tied l r := by
  constructor
  · intro hcoherent htied
    obtain ⟨op, ⟨hop, htrue⟩, -⟩ := hcoherent.exactly_one
    rw [apply_of_tied h htied] at htrue
    cases op <;> simp at hop htrue
  · intro htied
    obtain ⟨o, ho⟩ := exists_order_of_not_tied h htied
    exact coherent_of_order ho

private theorem effectiveDatatype_of_tied {a b : Literal}
    (h : (lt.apply (.literal a) (.literal b)).isSome) (htied : Tied (.literal a) (.literal b)) :
    a.effectiveDatatype = b.effectiveDatatype := by
  obtain ⟨x, y, o, hx, hy, ho⟩ | ⟨-, horder⟩ := order_of_isSome h
  · have hnumbers := htied.2.2
    simp [hx, hy] at hnumbers
  · obtain ⟨-, a', b', ha, hb, htype⟩ := textOrder?_eq_some horder
    cases ha
    cases hb
    exact htype

private theorem tied_iff_of_made {a b : Literal} (ha : a.Made) (hb : b.Made)
    (htype : a.effectiveDatatype = b.effectiveDatatype) :
    Tied (.literal a) (.literal b) ↔
      a.effectiveDatatype = Iri.langString ∧ a.value = b.value ∧ a.language ≠ b.language := by
  constructor
  · intro ⟨hne, htext, _⟩
    have hlanguage : a.language ≠ b.language := by
      intro hlanguage
      have hdatatype := ha.datatype_eq hb hlanguage htype
      apply hne
      cases a
      cases b
      simp_all [Node.text]
    refine ⟨?_, htext, hlanguage⟩
    by_cases hnone : a.language = none
    · rw [htype]
      exact hb.effectiveDatatype_of_language fun hnone' => hlanguage (hnone.trans hnone'.symm)
    · exact ha.effectiveDatatype_of_language hnone
  · intro ⟨hlang, htext, hlanguage⟩
    refine ⟨?_, htext, Or.inl (Literal.number?_of_langString hlang)⟩
    intro hsame
    exact hlanguage (congrArg Literal.language (Node.literal.inj hsame))

/-- The comparisons of two nodes that can be put in order all have a value, are kept when the
operands and the operators are exchanged, and tell equal from unequal. They ask for one order unless
the nodes are tied, and literals are tied only if they are one text in two languages. -/
theorem coherent_unless_tied {l r : Node} (h : (lt.apply l r).isSome) :
    (∀ op : Comparison, (op.apply l r).isSome ∧ op.converse.apply r l = op.apply l r) ∧
    ne.apply l r = (eq.apply l r).map not ∧
    (Coherent l r ↔ ¬ Tied l r) ∧
    (Tied l r → ∀ op : Comparison, op.apply l r = some (decide (op ∈ [ne, le, ge]))) ∧
    ∀ a b, a.Made → b.Made → l = .literal a → r = .literal b →
      (Tied l r ↔ a.effectiveDatatype = Iri.langString ∧ b.effectiveDatatype = Iri.langString ∧
        a.value = b.value ∧ a.language ≠ b.language) := by
  refine ⟨fun op => ⟨?_, op.apply_converse l r⟩, ne_apply_eq_not l r, coherent_iff_not_tied h,
    apply_of_tied h, ?_⟩
  · by_cases htied : Tied l r
    · simp [apply_of_tied h htied op]
    · obtain ⟨o, ho⟩ := exists_order_of_not_tied h htied
      simp [ho op]
  · intro a b ha hb hl hr
    subst hl hr
    constructor
    · intro htied
      have htype := effectiveDatatype_of_tied h htied
      obtain ⟨hlang, hrest⟩ := (tied_iff_of_made ha hb htype).1 htied
      exact ⟨hlang, htype ▸ hlang, hrest⟩
    · intro ⟨hlang, hlang', hrest⟩
      exact (tied_iff_of_made ha hb (hlang.trans hlang'.symm)).2 ⟨hlang, hrest⟩

/-- Numbers are in order by their value, which is not the order of their texts. -/
theorem coherent_unless_tied_numbers :
    let two : Node := .literal (.integer 2)
    let ten : Node := .literal (.integer 10)
    lt.apply two ten = some true ∧ gt.apply ten two = some true ∧ Coherent two ten := by
  intro two ten
  have hlt : lt.apply two ten = some true := by decide +kernel
  have hall := coherent_unless_tied (by simp [hlt] : (lt.apply two ten).isSome)
  refine ⟨hlt, (hall.1 lt).2.trans hlt, hall.2.2.1.2 ?_⟩
  intro htied
  exact absurd htied.2.1 (by decide +kernel)

/-- One text in two languages: the nodes are not equal, and neither is before the other. -/
theorem tied_in_two_languages :
    let en : Node := .literal (.tagged "chat" "en")
    let fr : Node := .literal (.tagged "chat" "fr")
    [lt, eq, gt].map (apply · en fr) = [some false, some false, some false] ∧
      [ne, le, ge].map (apply · en fr) = [some true, some true, some true] := by
  decide +kernel

end Comparison

end GraphPath
