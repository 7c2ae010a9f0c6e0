import GraphPath.Proofs.Naturality
import GraphPath.Proofs.Sorted
import GraphPath.Store.Order

/-!
# The order of answers

The order of rows is reversed with the rows whatever their values are. Two literals are compared as
numbers or as texts, and where the two rules do not disagree under any key the order is transitive
as well: then the sorted rows are in order. In general it is not transitive.
-/

namespace GraphPath

/-! ## Reversal -/

theorem Binary64.compare?_swap (x y : Binary64) : y.compare? x = (x.compare? y).map .swap := by
  cases x with
  | nan => cases y <;> rfl
  | number n m =>
    cases y with
    | nan => rfl
    | number n' m' =>
      have hrank : compare (rank n' m') (rank n m) = (compare (rank n m) (rank n' m')).swap :=
        Std.OrientedCmp.eq_swap
      exact congrArg some hrank

private theorem Literal.sortOrder_swap (l r : Literal) : r.sortOrder l = (l.sortOrder r).swap := by
  have htext : compare r.value l.value = (compare l.value r.value).swap := Std.OrientedCmp.eq_swap
  unfold Literal.sortOrder
  cases l.number? with
  | none => cases r.number? <;> exact htext
  | some x =>
    cases r.number? with
    | none => exact htext
    | some y =>
      simp only [Binary64.compare?_swap x y]
      cases x.compare? y <;> rfl

private theorem Node.sortOrder_swap (l r : Node) : r.sortOrder l = (l.sortOrder r).swap := by
  cases l with
  | iri i =>
    cases r with
    | iri j =>
      have htext : compare j.text i.text = (compare i.text j.text).swap := Std.OrientedCmp.eq_swap
      exact htext
    | literal m => rfl
  | literal l =>
    cases r with
    | iri j => rfl
    | literal m => exact l.sortOrder_swap m

private theorem valueOrder_swap (x y : Option Node) : valueOrder y x = (valueOrder x y).swap := by
  cases x with
  | none => cases y <;> rfl
  | some l =>
    cases y with
    | none => rfl
    | some r => exact l.sortOrder_swap r

private theorem Direction.apply_swap (d : Direction) (o : Ordering) :
    d.apply o.swap = (d.apply o).swap := by
  cases d <;> rfl

private theorem Row.sortOrder_swap (keys : List OrderKey) (a b : Row) :
    sortOrder keys b a = (sortOrder keys a b).swap := by
  induction keys with
  | nil => rfl
  | cons key keys ih =>
    rw [sortOrder, sortOrder, valueOrder_swap, Direction.apply_swap, ih, Ordering.swap_then]

/-! ## Transitivity -/

/-- Literals on which the two rules of comparison do not disagree. Either no literal fails to be
ordered by its value, and the text of one that is not a number comes before the texts of all numbers
or after them; or numbers, too, stand in the order of their texts. -/
inductive Literal.Consistent (ls : List Literal) : Prop
  | apart (ordered : ∀ l ∈ ls, l.number? ≠ some .nan)
      (sides : ∀ t ∈ ls, t.number? = none →
        (∀ n ∈ ls, n.number?.isSome → compare t.value n.value = .lt) ∨
        (∀ n ∈ ls, n.number?.isSome → compare t.value n.value = .gt))
  | byText (texts : ∀ l ∈ ls, ∀ r ∈ ls, l.sortOrder r = compare l.value r.value)

private theorem Literal.sortOrder_of_not_number {l r : Literal}
    (h : l.number? = none ∨ r.number? = none) :
    l.sortOrder r = compare l.value r.value := by
  unfold Literal.sortOrder
  cases h with
  | inl hl => rw [hl]
  | inr hr =>
    rw [hr]
    cases l.number? <;> rfl

private theorem Literal.isLE_text_swap (l r : Literal) :
    (compare l.value r.value).isLE = (compare r.value l.value).isGE := by
  have hswap : compare l.value r.value = (compare r.value l.value).swap := Std.OrientedCmp.eq_swap
  rw [hswap, Ordering.isLE_swap]

private theorem Binary64.compare?_trans {x y z : Binary64} (hx : x ≠ .nan) (hy : y ≠ .nan)
    (hz : z ≠ .nan) (hxy : ((x.compare? y).getD .eq).isLE = true)
    (hyz : ((y.compare? z).getD .eq).isLE = true) :
    ((x.compare? z).getD .eq).isLE = true := by
  cases x with
  | nan => exact absurd rfl hx
  | number n m =>
    cases y with
    | nan => exact absurd rfl hy
    | number n' m' =>
      cases z with
      | nan => exact absurd rfl hz
      | number n'' m'' =>
        change (compare (rank n m) (rank n' m')).isLE = true at hxy
        change (compare (rank n' m') (rank n'' m'')).isLE = true at hyz
        show (compare (rank n m) (rank n'' m'')).isLE = true
        exact Std.TransCmp.isLE_trans hxy hyz

private theorem Literal.Consistent.sortOrder_trans {ls : List Literal} (h : Literal.Consistent ls)
    {a b c : Literal} (ha : a ∈ ls) (hb : b ∈ ls) (hc : c ∈ ls) (hab : (a.sortOrder b).isLE = true)
    (hbc : (b.sortOrder c).isLE = true) : (a.sortOrder c).isLE = true := by
  have htext (hab : (compare a.value b.value).isLE = true)
      (hbc : (compare b.value c.value).isLE = true) : (compare a.value c.value).isLE = true :=
    Std.TransCmp.isLE_trans hab hbc
  cases h with
  | byText htexts =>
    rw [htexts a ha b hb] at hab
    rw [htexts b hb c hc] at hbc
    rw [htexts a ha c hc]
    exact htext hab hbc
  | apart hordered hsides =>
    -- Two of the three are numbers in the cases that the sides decide.
    cases hna : a.number? with
    | none =>
      rw [sortOrder_of_not_number (.inl hna)] at hab ⊢
      cases hnb : b.number? with
      | none =>
        rw [sortOrder_of_not_number (.inl hnb)] at hbc
        exact htext hab hbc
      | some y =>
        cases hnc : c.number? with
        | none =>
          rw [sortOrder_of_not_number (.inr hnc)] at hbc
          exact htext hab hbc
        | some z =>
          cases hsides a ha hna with
          | inl hbefore => rw [hbefore c hc (by simp [hnc])]; rfl
          | inr hafter =>
            rw [hafter b hb (by simp [hnb])] at hab
            cases hab
    | some x =>
      cases hnb : b.number? with
      | none =>
        rw [sortOrder_of_not_number (.inr hnb), isLE_text_swap] at hab
        rw [sortOrder_of_not_number (.inl hnb)] at hbc
        cases hnc : c.number? with
        | none =>
          rw [sortOrder_of_not_number (.inr hnc)]
          rw [← isLE_text_swap] at hab
          exact htext hab hbc
        | some z =>
          cases hsides b hb hnb with
          | inl hbefore =>
            rw [hbefore a ha (by simp [hna])] at hab
            cases hab
          | inr hafter =>
            rw [hafter c hc (by simp [hnc])] at hbc
            cases hbc
      | some y =>
        cases hnc : c.number? with
        | none =>
          rw [sortOrder_of_not_number (.inr hnc), isLE_text_swap] at hbc ⊢
          cases hsides c hc hnc with
          | inl hbefore =>
            rw [hbefore b hb (by simp [hnb])] at hbc
            cases hbc
          | inr hafter => rw [hafter a ha (by simp [hna])]; rfl
        | some z =>
          simp only [sortOrder, hna, hnb, hnc] at hab hbc ⊢
          apply Binary64.compare?_trans _ _ _ hab hbc
          · exact fun h => hordered a ha (h ▸ hna)
          · exact fun h => hordered b hb (h ▸ hnb)
          · exact fun h => hordered c hc (h ▸ hnc)

namespace Row

/-- The literals that a variable has in rows. -/
def literals (rows : List Row) (v : Variable) : List Literal :=
  rows.filterMap fun row => (row.value? v).bind Node.literal?

/-- Under every key, the two rules of comparison do not disagree on the literals of the rows. -/
def Comparable (keys : List OrderKey) (rows : List Row) : Prop :=
  ∀ key ∈ keys, Literal.Consistent (literals rows key.target)

private theorem mem_literals {rows : List Row} {row : Row} (hrow : row ∈ rows) {v : Variable}
    {l : Literal} (hl : row.value? v = some (.literal l)) : l ∈ literals rows v :=
  List.mem_filterMap.2 ⟨row, hrow, by rw [hl]; rfl⟩

/-- Of rows that do not come after one another, the first does not come after the last. -/
def Transitive (rows : List Row) (order : Row → Row → Ordering) : Prop :=
  ∀ a ∈ rows, ∀ b ∈ rows, ∀ c ∈ rows, (order a b).isLE = true → (order b c).isLE = true →
    (order a c).isLE = true

variable {rows : List Row}

private theorem transitive_valueOrder {v : Variable} (h : Literal.Consistent (literals rows v)) :
    Transitive rows fun a b => valueOrder (a.value? v) (b.value? v) := by
  intro a ha b hb c hc hab hbc
  beta_reduce at hab hbc ⊢
  cases hva : a.value? v with
  | none => cases c.value? v <;> rfl
  | some x =>
    rw [hva] at hab
    cases hvb : b.value? v with
    | none =>
      rw [hvb] at hab
      cases hab
    | some y =>
      rw [hvb] at hab hbc
      cases hvc : c.value? v with
      | none =>
        rw [hvc] at hbc
        cases hbc
      | some z =>
        rw [hvc] at hbc
        cases x with
        | iri i =>
          cases z with
          | literal n => rfl
          | iri k =>
            cases y with
            | literal m => cases hbc
            | iri j =>
              change (compare i.text j.text).isLE = true at hab
              change (compare j.text k.text).isLE = true at hbc
              show (compare i.text k.text).isLE = true
              exact Std.TransCmp.isLE_trans hab hbc
        | literal l =>
          cases y with
          | iri j => cases hab
          | literal m =>
            cases z with
            | iri k => cases hbc
            | literal n =>
              exact h.sortOrder_trans (mem_literals ha hva) (mem_literals hb hvb)
                (mem_literals hc hvc) hab hbc

private theorem Transitive.direction {order : Row → Row → Ordering}
    (hswap : ∀ a b, order b a = (order a b).swap) (h : Transitive rows order) (d : Direction) :
    Transitive rows fun a b => d.apply (order a b) := by
  cases d with
  | ascending => exact h
  | descending =>
    intro a ha b hb c hc hab hbc
    simp only [Direction.apply, ← hswap] at hab hbc ⊢
    exact h c hc b hb a ha hbc hab

private theorem Transitive.lexicographic {first second : Row → Row → Ordering}
    (hswap : ∀ a b, first b a = (first a b).swap) (hfirst : Transitive rows first)
    (hsecond : Transitive rows second) :
    Transitive rows fun a b => (first a b).then (second a b) := by
  intro a ha b hb c hc hab hbc
  rw [Ordering.isLE_then_iff_and] at hab hbc ⊢
  have hac := hfirst a ha b hb c hc hab.1 hbc.1
  by_cases hlt : first a c = .lt
  · exact ⟨hac, .inl hlt⟩
  · have hca : (first c a).isLE = true := by
      rw [hswap a c]
      cases hcases : first a c with
      | lt => exact absurd hcases hlt
      | eq => rfl
      | gt =>
        rw [hcases] at hac
        cases hac
    have hba := hfirst b hb c hc a ha hbc.1 hca
    have hcb := hfirst c hc a ha b hb hca hab.1
    have hab' : first a b ≠ .lt := by
      intro heq
      rw [hswap a b, heq] at hba
      cases hba
    have hbc' : first b c ≠ .lt := by
      intro heq
      rw [hswap b c, heq] at hcb
      cases hcb
    exact ⟨hac, .inr (hsecond a ha b hb c hc (hab.2.resolve_left hab') (hbc.2.resolve_left hbc'))⟩

private theorem transitive_sortOrder {keys : List OrderKey} (h : Comparable keys rows) :
    Transitive rows (sortOrder keys) := by
  induction keys with
  | nil =>
    intro a _ b _ c _ _ _
    rfl
  | cons key keys ih =>
    have hkey := transitive_valueOrder (h key (.head keys))
    have hswap : ∀ a b : Row, valueOrder (b.value? key.target) (a.value? key.target) =
        (valueOrder (a.value? key.target) (b.value? key.target)).swap := fun a b =>
      valueOrder_swap _ _
    apply Transitive.lexicographic
    · intro a b
      rw [hswap a b, Direction.apply_swap]
    · exact hkey.direction hswap key.direction
    · exact ih fun key hmem => h key (.tail _ hmem)

/-! ## Sorted rows -/

private theorem isLT_sortOrder_eq_false_iff {keys : List OrderKey} {a b : Row} :
    (sortOrder keys b a).isLT = false ↔ (sortOrder keys a b).isLE = true := by
  rw [sortOrder_swap keys a b]
  cases sortOrder keys a b <;> simp

/-- The relation by which rows are sorted, among rows on which the order is transitive. -/
theorem lawful_sortOrder {keys : List OrderKey} (h : Transitive rows (sortOrder keys)) :
    Sorting.Lawful (Function.onFun (fun a b => (sortOrder keys a b).isLT)
      (Subtype.val : { row // row ∈ rows } → Row)) := by
  constructor
  · intro a b hab
    have hlt : sortOrder keys a.1 b.1 = .lt := Ordering.isLT_iff_eq_lt.mp hab
    apply isLT_sortOrder_eq_false_iff.mpr
    rw [hlt]
    rfl
  · intro a b c hab hbc
    apply isLT_sortOrder_eq_false_iff.mpr
    exact h a a.2 b b.2 c c.2 (isLT_sortOrder_eq_false_iff.mp hab)
      (isLT_sortOrder_eq_false_iff.mp hbc)

private theorem pairwise_sort {keys : List OrderKey} (h : Transitive rows (sortOrder keys)) :
    (sort keys rows).Pairwise fun a b => (sortOrder keys a b).isLE = true := by
  have hsorted := Sorting.ordered_sort (lawful_sortOrder h) rows.attach
  have hmap := Sorting.sort_map (fun a b => (sortOrder keys a b).isLT) Subtype.val rows.attach
  rw [List.attach_map_subtype_val] at hmap
  rw [sort, hmap, List.pairwise_map]
  apply hsorted.imp
  intro a b hab
  exact isLT_sortOrder_eq_false_iff.mp hab

/-- The order of rows is reversed with the rows. On comparable rows it is transitive, and no sorted
row comes after a later one. -/
theorem sort_lawful {keys : List OrderKey} {rows : List Row} (h : Comparable keys rows) :
    (∀ a b, sortOrder keys b a = (sortOrder keys a b).swap) ∧
    (∀ a ∈ rows, ∀ b ∈ rows, ∀ c ∈ rows, (sortOrder keys a b).isLE = true →
      (sortOrder keys b c).isLE = true → (sortOrder keys a c).isLE = true) ∧
    (sort keys rows).Perm rows ∧
    (sort keys rows).Pairwise fun a b => (sortOrder keys a b).isLE = true :=
  ⟨sortOrder_swap keys, transitive_sortOrder h, sort_perm keys rows,
    pairwise_sort (transitive_sortOrder h)⟩

/-- Rows without a value, with a resource, with numbers and with a text in a language. -/
theorem sort_lawful_mixed :
    let x : Variable := ⟨"x"⟩
    let y : Variable := ⟨"y"⟩
    let row (n m : Node) : Row := Row.bind (Row.bind .empty x n) y m
    let keys : List OrderKey := [⟨x, .descending⟩, ⟨y, .ascending⟩]
    let nine : Node := .literal (.integer 9)
    let ten : Node := .literal (.integer 10)
    let text : Node := .literal (.tagged "n" "EN")
    let resource : Node := .iri ⟨"http://e/a"⟩
    let rows := [row nine ten, .empty, row text nine, row ten resource, row nine nine]
    Comparable keys rows ∧
      sort keys rows = [row text nine, row ten resource, row nine nine, row nine ten, .empty] ∧
      (sort keys rows).Pairwise fun a b => (sortOrder keys a b).isLE = true := by
  intro x y row keys nine ten text resource rows
  have hx : ∀ l ∈ literals rows x, l.number? ≠ some .nan := by decide +kernel
  have hy : ∀ l ∈ literals rows y, l.number? ≠ some .nan := by decide +kernel
  have hafter : ∀ t ∈ literals rows x, t.number? = none →
      ∀ n ∈ literals rows x, n.number?.isSome → compare t.value n.value = .gt := by decide +kernel
  have hnumbers : ∀ t ∈ literals rows y, t.number? ≠ none := by decide +kernel
  have hcomparable : Comparable keys rows := by
    intro key hkey
    simp only [keys, List.mem_cons, List.not_mem_nil, or_false] at hkey
    cases hkey with
    | inl hfirst =>
      subst hfirst
      exact .apart hx fun t ht hnone => .inr (hafter t ht hnone)
    | inr hsecond =>
      subst hsecond
      exact .apart hy fun t ht hnone => absurd hnone (hnumbers t ht)
  exact ⟨hcomparable, by decide +kernel, (sort_lawful hcomparable).2.2.2⟩

/-- A number ties with another number of its value and with its own text, which are in order
themselves; and a value that is not a number ties with every number. In both cases rows come out of
the sort unmoved although the first of them comes after the last. -/
theorem sort_unlawful :
    let y : Variable := ⟨"y"⟩
    let row (l : Literal) : Row := Row.bind .empty y (.literal l)
    let keys : List OrderKey := [⟨y, .ascending⟩]
    let texts := [row (.plain "1"), row (.integer 1), row (.typed "01" Iri.xsdInteger)]
    let numbers := [row (.integer 2), row (.typed "NaN" (Iri.xsd "double")), row (.integer 1)]
    ∀ rows ∈ [texts, numbers], sort keys rows = rows ∧
      ∃ a ∈ rows, ∃ b ∈ rows, ∃ c ∈ rows, (sortOrder keys a b).isLE = true ∧
        (sortOrder keys b c).isLE = true ∧ sortOrder keys a c = .gt := by
  decide +kernel

end Row

end GraphPath
