import GraphPath.Proofs.Cap
import GraphPath.Proofs.Rules

/-!
# Variables that a group does not mention

A group neither reads nor binds a variable that does not stand in it. So a seed may bind such a
variable to anything: the evaluation fails as before, or finds the rows that it found before, each
with the variable bound in it.
-/

namespace GraphPath

private theorem mem_eraseReps_loop {α : Type} [BEq α] [LawfulBEq α] {x : α} (a : α)
    (as before : List α) :
    x ∈ List.eraseRepsBy.loop (· == ·) a as before ↔ x ∈ before ∨ x ∈ a :: as := by
  induction as generalizing a before with
  | nil => simp [List.eraseRepsBy.loop, or_comm]
  | cons b as ih =>
    rw [List.eraseRepsBy.loop]
    split
    · next heq =>
      rw [ih, eq_of_beq heq]
      simp
    · rw [ih, List.mem_cons (a := x) (b := a) (l := b :: as), List.mem_cons, or_assoc]
      exact or_left_comm

private theorem mem_eraseReps {α : Type} [BEq α] [LawfulBEq α] {x : α} {l : List α} :
    x ∈ l.eraseReps ↔ x ∈ l := by
  cases l with
  | nil => rfl
  | cons a as =>
    change x ∈ List.eraseRepsBy.loop (· == ·) a as [] ↔ _
    simp [mem_eraseReps_loop]

private theorem Row.eq_map_bind {rows rows' : List Row} {y : Variable} {n : Node}
    (h : List.Forall₂ (fun x x' => ∀ v ∈ {v | v ≠ y}, x'.value? v = x.value? v) rows rows')
    (hbound : ∀ x ∈ rows', x.value? y = some n) : rows' = rows.map fun x => x.bind y n := by
  induction h with
  | nil => rfl
  | @cons x x' rest rest' hx _ ih =>
    rw [List.forall_mem_cons] at hbound
    have hrow : x' = x.bind y n := by
      apply Row.ext_value?
      intro v
      by_cases hv : v = y
      · subst hv
        simp [hbound.1]
      · rw [hx v hv, Row.value?_bind, if_neg hv]
    rw [List.map_cons, hrow, ih hbound.2]

namespace Group

private theorem mem_variableNames_iff {g : Group} {v : Variable} :
    v.name ∈ g.variableNames ↔ v ∈ g.vars := by
  rw [variableNames, mem_eraseReps, List.mem_mergeSort, List.mem_map]
  constructor
  · rintro ⟨w, hw, hname⟩
    obtain rfl : w = v := by
      cases w
      cases v
      cases hname
      rfl
    exact hw
  · intro hv
    exact ⟨v, hv, rfl⟩

variable {D : List Quad} {g : Group} {y : Variable}

private theorem forall_vars_ne (hy : y ∉ g.vars) : ∀ v ∈ g.vars, v ∈ {v | v ≠ y} := by
  rintro v hv rfl
  exact hy hv

/-- The rows from a seed that binds another variable: they correspond to the rows from the seed
without it, and keep what the seed binds. -/
theorem found_bind (hy : y ∉ g.vars) (row : Row) (n : Node) :
    found D g (row.bind y n) = (found D g row).map fun x => x.bind y n := by
  have halike : ∀ v ∈ {v | v ≠ y}, (row.bind y n).value? v = row.value? v := by
    intro v hv
    rw [Row.value?_bind, if_neg hv]
  have hkept : ∀ x ∈ found D g (row.bind y n), x.value? y = some n := by
    intro x hx
    exact (found_grows hx).below y n (by simp)
  exact Row.eq_map_bind (found_congr (forall_vars_ne hy) halike) hkept

private theorem peak_bind (hy : y ∉ g.vars) (row : Row) (n : Node) :
    peak D g [row.bind y n] = peak D g [row] := by
  have halike : Row.Mirrors id {v | v ≠ y} row (row.bind y n) := by
    intro v hv
    exact (Row.value?_bind row y v n).trans (if_neg hv)
  have hpeak := peak_rename (Set.injOn_id _) D g (forall_vars_ne hy) (.cons halike .nil)
  rwa [Element.renameAll_id] at hpeak

/-- A variable that does not stand in a group may be bound in the seed: the error stays the same, or
the rows are those found without it, each with the variable bound. And a row binds nothing but what
the seed binds and variables of the group. -/
theorem rows_frame (s : Snapshot) (g : Group) (row : Row) :
    (∀ y n, y.name ∉ g.variableNames →
      rows s g [row.bind y n] = (rows s g [row]).map (List.map fun x => x.bind y n)) ∧
    ∀ found, rows s g [row] = .ok found → ∀ x ∈ found, ∀ v, (x.value? v).isSome →
      (row.value? v).isSome ∨ v.name ∈ g.variableNames := by
  constructor
  · intro y n hy
    rw [mem_variableNames_iff] at hy
    have hbound := rows_settlesAt s.quads g [row.bind y n] s.cap
    have hrows := rows_settlesAt s.quads g [row] s.cap
    simp only [List.flatMap_singleton] at hbound hrows
    rw [hbound, hrows, peak_bind hy, found_bind hy]
    split <;> rfl
  · intro found hfound x hx v hv
    rw [mem_variableNames_iff]
    rw [rows_eq_found hfound] at hx
    by_cases hmem : v ∈ g.vars
    · exact .inr hmem
    · rw [(found_grows hx).outside v hmem] at hv
      exact .inl hv

/-- Patterns and conditions on several levels, and a seed that binds a variable of none of them: the
rows are found under a large cap, and the error is met under a small one. -/
theorem rows_frame_nested :
    let x : Variable := ⟨"x"⟩
    let y : Variable := ⟨"y"⟩
    let z : Variable := ⟨"z"⟩
    let w : Variable := ⟨"w"⟩
    let p : Iri := ⟨"http://e/p"⟩
    let a : Iri := ⟨"http://e/a"⟩
    let b : Iri := ⟨"http://e/b"⟩
    let D : List Quad := [⟨a, p, .iri b, none⟩, ⟨b, p, .literal (.plain "c"), none⟩]
    let g : Group := [.ofTriple (.var x) (.iri p) (.var z),
      .optional [.ofTriple (.var z) (.iri p) (.var w), .filter (.not (.equals (.var w) (.var x)))],
      .union [[.bind (.term (.iri a)) ⟨"u"⟩], [.ofTriple (.var x) (.iri p) (.iri a)]],
      .filter (.exist [.bind (.coalesce [.var w, .call .str [.var z]]) ⟨"t"⟩,
        .filter (.exist [.ofTriple (.iri b) (.iri p) (.var ⟨"t"⟩)])])]
    let seed := Row.bind .empty y (.iri b)
    y.name ∉ g.variableNames ∧
      (∃ found, rows ⟨D, 2⟩ g [.empty] = .ok found ∧ found.length = 2 ∧
        rows ⟨D, 2⟩ g [seed] = .ok (found.map fun row => row.bind y (.iri b)) ∧
        ∀ row ∈ found, ∀ v, (row.value? v).isSome → v.name ∈ g.variableNames) ∧
      rows ⟨D, 1⟩ g [seed] = .error (.tooManyRows 1) := by
  intro x y z w p a b D g seed
  have hy : y.name ∉ g.variableNames := by
    rw [mem_variableNames_iff]
    decide
  have htwo : (rows ⟨D, 2⟩ g [.empty]).toOption.any (fun found => found.length = 2) = true := by
    decide +kernel
  have hfails : rows ⟨D, 1⟩ g [.empty] = .error (.tooManyRows 1) := by decide +kernel
  obtain ⟨found, hfound, hlength⟩ := exists_ok_of_any htwo
  obtain ⟨hframe, hbound⟩ := rows_frame ⟨D, 2⟩ g .empty
  refine ⟨hy, ⟨found, hfound, of_decide_eq_true hlength, ?_, ?_⟩, ?_⟩
  · rw [hframe y (.iri b) hy, hfound]
    rfl
  · intro row hrow v hv
    exact (hbound found hfound row hrow v hv).resolve_left (by simp)
  · rw [(rows_frame ⟨D, 1⟩ g .empty).1 y (.iri b) hy, hfails]
    rfl

end Group

end GraphPath
