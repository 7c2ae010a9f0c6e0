import GraphPath.Proofs.Cap
import GraphPath.Proofs.Conjunction
import Mathlib.Data.List.Perm.Basic

/-!
# The order of statements

Over statements in another order every group has the same rows in another order, and every
expression the same value: a row is made from statements one at a time, whether a scope or an
optional part has a match is not a matter of order, and neither is how many rows a step holds. So a
query stays within the same caps, and has the same answers, each as often.
-/

namespace GraphPath

private theorem Row.largest_of_perm {size size' : Row → Nat} {rows rows' : List Row}
    (h : rows.Perm rows') (hsize : ∀ row, size row = size' row) :
    Row.largest size rows = Row.largest size' rows' := by
  rw [← funext hsize]
  exact h.foldr_eq' (fun x _ y _ most => Nat.max_left_comm (size y) (size x) most) 0

private theorem Row.filter_of_perm {keep keep' : Row → Bool} {rows rows' : List Row}
    (h : rows.Perm rows') (hkeep : ∀ row, keep row = keep' row) :
    (rows.filter keep).Perm (rows'.filter keep') := by
  rw [← funext hkeep]
  exact h.filter keep

section

variable {D D' : List Quad}

mutual

private theorem Expr.value?_of_perm (h : D.Perm D') (e : Expr) (row : Row) :
    Expr.value? D e row = Expr.value? D' e row := by
  cases e with
  | always => rfl
  | term t => rfl
  | not e => simp only [Expr.value?, Expr.value?_of_perm h e row]
  | and left right =>
    simp only [Expr.value?, Expr.value?_of_perm h left row, Expr.value?_of_perm h right row]
  | or left right =>
    simp only [Expr.value?, Expr.value?_of_perm h left row, Expr.value?_of_perm h right row]
  | compare op left right =>
    simp only [Expr.value?, Expr.value?_of_perm h left row, Expr.value?_of_perm h right row]
  | exist scope =>
    have hfound := Row.filter_of_perm (Element.steps_of_perm h scope row)
      (Element.holdAll_of_perm h scope)
    simp only [Expr.value?, hfound.isEmpty_eq]
  | coalesce args => exact Expr.firstValue?_of_perm h args row
  | call f args => simp only [Expr.value?, Expr.values?_of_perm h args row]

private theorem Expr.firstValue?_of_perm (h : D.Perm D') (args : List Expr) (row : Row) :
    Expr.firstValue? D args row = Expr.firstValue? D' args row := by
  cases args with
  | nil => rfl
  | cons e rest =>
    simp only [Expr.firstValue?, Expr.value?_of_perm h e row, Expr.firstValue?_of_perm h rest row]

private theorem Expr.values?_of_perm (h : D.Perm D') (args : List Expr) (row : Row) :
    Expr.values? D args row = Expr.values? D' args row := by
  cases args with
  | nil => rfl
  | cons e rest =>
    simp only [Expr.values?, Expr.value?_of_perm h e row, Expr.values?_of_perm h rest row]

private theorem Element.step_of_perm (h : D.Perm D') (e : Element) (row : Row) :
    (Element.step D e row).Perm (Element.step D' e row) := by
  cases e with
  | triple t => exact h.filterMap _
  | group inner =>
    exact (Row.filter_of_perm (Element.steps_of_perm h inner .empty)
      (Element.holdAll_of_perm h inner)).filterMap _
  | union branches => exact (Element.branchSteps_of_perm h branches).filterMap _
  | optional inner =>
    have hmerged := Row.filter_of_perm ((Element.steps_of_perm h inner .empty).filterMap row.meet?)
      (Element.holdAll_of_perm h inner)
    simp only [Element.step, hmerged.isEmpty_eq]
    split
    · exact .refl _
    · exact hmerged
  | filter e => exact .refl _
  | bind e target =>
    simp only [Element.step, Expr.value?_of_perm h e row]
    exact .refl _

private theorem Element.steps_of_perm (h : D.Perm D') (g : List Element) (row : Row) :
    (Element.steps D g row).Perm (Element.steps D' g row) := by
  cases g with
  | nil => exact .refl _
  | cons e rest =>
    exact (Element.step_of_perm h e row).flatMap fun next _ => Element.steps_of_perm h rest next

private theorem Element.branchSteps_of_perm (h : D.Perm D') (branches : List (List Element)) :
    (Element.branchSteps D branches).Perm (Element.branchSteps D' branches) := by
  cases branches with
  | nil => exact .refl _
  | cons g rest =>
    exact (Row.filter_of_perm (Element.steps_of_perm h g .empty)
      (Element.holdAll_of_perm h g)).append (Element.branchSteps_of_perm h rest)

private theorem Element.hold_of_perm (h : D.Perm D') (e : Element) (row : Row) :
    Element.hold D e row = Element.hold D' e row := by
  cases e with
  | filter e => simp only [Element.hold, Expr.value?_of_perm h e row]
  | _ => rfl

private theorem Element.holdAll_of_perm (h : D.Perm D') (g : List Element) (row : Row) :
    Element.holdAll D g row = Element.holdAll D' g row := by
  cases g with
  | nil => rfl
  | cons e rest =>
    simp only [Element.holdAll, Element.hold_of_perm h e row, Element.holdAll_of_perm h rest row]

end

/-- A group has the same rows over the same statements, each as often. -/
theorem Group.found_of_perm (h : D.Perm D') (g : Group) (row : Row) :
    (Group.found D g row).Perm (Group.found D' g row) :=
  Row.filter_of_perm (Element.steps_of_perm h g row) (Element.holdAll_of_perm h g)

mutual

private theorem Expr.peak_of_perm (h : D.Perm D') (e : Expr) (row : Row) :
    Expr.peak D e row = Expr.peak D' e row := by
  cases e with
  | always => rfl
  | term t => rfl
  | not e => exact Expr.peak_of_perm h e row
  | and left right =>
    simp only [Expr.peak, Expr.peak_of_perm h left row, Expr.peak_of_perm h right row]
  | or left right =>
    simp only [Expr.peak, Expr.peak_of_perm h left row, Expr.peak_of_perm h right row]
  | compare op left right =>
    simp only [Expr.peak, Expr.peak_of_perm h left row, Expr.peak_of_perm h right row]
  | exist scope =>
    have hchecks := Row.largest_of_perm (Element.steps_of_perm h scope row)
      (Element.checkAllPeak_of_perm h scope)
    simp only [Expr.peak, Element.peakAll_of_perm h scope (.refl [row]), hchecks]
  | coalesce args => exact Expr.firstPeak_of_perm h args row
  | call f args => exact Expr.valuesPeak_of_perm h args row

private theorem Expr.firstPeak_of_perm (h : D.Perm D') (args : List Expr) (row : Row) :
    Expr.firstPeak D args row = Expr.firstPeak D' args row := by
  cases args with
  | nil => rfl
  | cons e rest =>
    simp only [Expr.firstPeak, Expr.value?_of_perm h e row, Expr.peak_of_perm h e row,
      Expr.firstPeak_of_perm h rest row]

private theorem Expr.valuesPeak_of_perm (h : D.Perm D') (args : List Expr) (row : Row) :
    Expr.valuesPeak D args row = Expr.valuesPeak D' args row := by
  cases args with
  | nil => rfl
  | cons e rest =>
    simp only [Expr.valuesPeak, Expr.value?_of_perm h e row, Expr.peak_of_perm h e row,
      Expr.valuesPeak_of_perm h rest row]

private theorem Element.peak_of_perm (h : D.Perm D') (e : Element) {rows rows' : List Row}
    (hrows : rows.Perm rows') : Element.peak D e rows = Element.peak D' e rows' := by
  cases e with
  | triple t => rfl
  | group inner =>
    have hchecks := Row.largest_of_perm (Element.steps_of_perm h inner .empty)
      (Element.checkAllPeak_of_perm h inner)
    simp only [Element.peak, Element.peakAll_of_perm h inner (.refl [.empty]), hchecks]
  | union branches => exact Element.branchPeak_of_perm h branches
  | optional inner =>
    have hchecks := Row.largest_of_perm hrows fun row =>
      Row.largest_of_perm ((Element.steps_of_perm h inner .empty).filterMap row.meet?)
        (Element.checkAllPeak_of_perm h inner)
    simp only [Element.peak, Element.peakAll_of_perm h inner (.refl [.empty]), hchecks]
  | filter e => rfl
  | bind e target =>
    refine Row.largest_of_perm hrows fun row => ?_
    rw [Expr.peak_of_perm h e row]

private theorem Element.peakAll_of_perm (h : D.Perm D') (g : List Element) {rows rows' : List Row}
    (hrows : rows.Perm rows') : Element.peakAll D g rows = Element.peakAll D' g rows' := by
  cases g with
  | nil => rfl
  | cons e rest =>
    have hextended := hrows.flatMap fun row _ => Element.step_of_perm h e row
    simp only [Element.peakAll, Element.peak_of_perm h e hrows, hextended.length_eq,
      Element.peakAll_of_perm h rest hextended]

private theorem Element.branchPeak_of_perm (h : D.Perm D') (branches : List (List Element)) :
    Element.branchPeak D branches = Element.branchPeak D' branches := by
  cases branches with
  | nil => rfl
  | cons g rest =>
    have hchecks := Row.largest_of_perm (Element.steps_of_perm h g .empty)
      (Element.checkAllPeak_of_perm h g)
    simp only [Element.branchPeak, Element.peakAll_of_perm h g (.refl [.empty]), hchecks,
      Element.branchPeak_of_perm h rest]

private theorem Element.checkPeak_of_perm (h : D.Perm D') (e : Element) (row : Row) :
    Element.checkPeak D e row = Element.checkPeak D' e row := by
  cases e with
  | filter e => exact Expr.peak_of_perm h e row
  | _ => rfl

private theorem Element.checkAllPeak_of_perm (h : D.Perm D') (g : List Element) (row : Row) :
    Element.checkAllPeak D g row = Element.checkAllPeak D' g row := by
  cases g with
  | nil => rfl
  | cons e rest =>
    simp only [Element.checkAllPeak, Element.hold_of_perm h e row,
      Element.checkPeak_of_perm h e row, Element.checkAllPeak_of_perm h rest row]

end

private theorem Group.peak_of_perm (h : D.Perm D') (g : Group) {seeds seeds' : List Row}
    (hseeds : seeds.Perm seeds') : Group.peak D g seeds = Group.peak D' g seeds' := by
  have hsteps := hseeds.flatMap fun row _ => Element.steps_of_perm h g row
  rw [Group.peak, Group.peak, Element.peakAll_of_perm h g hseeds,
    Row.largest_of_perm hsteps (Element.checkAllPeak_of_perm h g)]

namespace Query

private theorem peak_of_perm (h : D.Perm D') (q : Query) : q.peak D = q.peak D' :=
  Group.peak_of_perm (h.filter _) q.pattern (.refl _)

private theorem answers_of_perm {q : Query} (hlimit : q.limit = none) (hoffset : q.offset = none)
    {rows rows' : List Row} (h : rows.Perm rows') : (q.answers rows).Perm (q.answers rows') := by
  cases hdistinct : q.distinct with
  | true =>
    refine (List.perm_ext_iff_of_nodup (nodup_answers hlimit hoffset hdistinct rows)
      (nodup_answers hlimit hoffset hdistinct rows')).2 fun answer => ?_
    simp only [mem_answers_iff hlimit hoffset, h.mem_iff]
  | false =>
    have hsorted := ((Row.sort_perm q.orderBy rows).trans h).trans
      (Row.sort_perm q.orderBy rows').symm
    simpa [answers, hlimit, hoffset, hdistinct] using hsorted.map (·.restrict q.projection)

/-- Over statements in another order a query without bounds fails in the same way, or has the same
answers, each as often, and once if they are to be distinct. -/
theorem eval_of_perm (q : Query) (hlimit : q.limit = none) (hoffset : q.offset = none)
    (h : D.Perm D') (cap : Nat) :
    (∃ e, q.eval D cap = .error e ∧ q.eval D' cap = .error e) ∨
      ∃ rows rows', q.eval D cap = .ok rows ∧ q.eval D' cap = .ok rows' ∧ rows.Perm rows' ∧
        (q.distinct = true → rows.Nodup ∧ rows'.Nodup) := by
  rw [q.eval_eq D cap, q.eval_eq D' cap, ← q.peak_of_perm h]
  by_cases hpeak : q.peak D ≤ cap
  · refine .inr ⟨_, _, if_pos hpeak, if_pos hpeak, ?_, fun hdistinct =>
      ⟨nodup_answers hlimit hoffset hdistinct _, nodup_answers hlimit hoffset hdistinct _⟩⟩
    exact answers_of_perm hlimit hoffset (Group.found_of_perm (h.filter _) q.pattern .empty)
  · exact .inl ⟨_, if_neg hpeak, if_neg hpeak⟩

end Query

end

/-- Two subjects, one of which matches twice, in the order in which the statements name them. -/
theorem Query.eval_of_perm_reversed :
    let x : Variable := ⟨"x"⟩
    let p : Iri := ⟨"http://e/p"⟩
    let a : Iri := ⟨"http://e/a"⟩
    let b : Iri := ⟨"http://e/b"⟩
    let D : List Quad := [⟨a, p, .iri a, none⟩, ⟨a, p, .iri b, none⟩, ⟨b, p, .iri a, none⟩]
    let q : Query := {
      projection := x
      pattern := [.ofTriple (.var x) (.iri p) (.var ⟨"y"⟩),
        .optional [.ofTriple (.var ⟨"y"⟩) (.iri p) (.iri b)],
        .filter (.exist [.ofTriple (.var x) (.iri p) (.iri a)])] }
    let rows := [Row.bind .empty x (.iri a), Row.bind .empty x (.iri b)]
    q.limit = none ∧ q.offset = none ∧ D.Perm D.reverse ∧ q.eval D 3 = .ok rows ∧
      q.eval D.reverse 3 = .ok rows.reverse ∧ rows.Perm rows.reverse := by
  intro x p a b D q rows
  have hperm : D.Perm D.reverse := D.reverse_perm.symm
  have hrows : q.eval D 3 = .ok rows := by decide +kernel
  have hrows' : q.eval D.reverse 3 = .ok rows.reverse := by decide +kernel
  refine ⟨rfl, rfl, hperm, hrows, hrows', ?_⟩
  rcases q.eval_of_perm rfl rfl hperm 3 with ⟨e, he, -⟩ | ⟨found, found', h, h', hfound, -⟩
  · cases hrows.symm.trans he
  · obtain rfl := Except.ok.inj (hrows.symm.trans h)
    obtain rfl := Except.ok.inj (hrows'.symm.trans h')
    exact hfound

end GraphPath
