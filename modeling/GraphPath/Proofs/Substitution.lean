import GraphPath.Proofs.Seeding
import GraphPath.Proofs.Tracing

/-!
# Scopes and substitution

A scope starts from the row of the expression it stands in. That comes to the same as putting the
values of the row in the place of its variables, throughout the scope, and starting from nothing;
but only as long as whatever reads such a variable finds a value for it. The groups inside a scope
start from nothing themselves, and what stands in them does not see the row.
-/

namespace GraphPath

/-! ## Substitution -/

/-- The term with the value of the row in the place of a variable that the row binds. -/
def Term.substitute (μ : Row) : Term → Term
  | .var v =>
    match μ.value? v with
    | some n => .node n
    | none => .var v
  | .node n => .node n

def TriplePattern.substitute (μ : Row) (t : TriplePattern) : TriplePattern :=
  ⟨t.subject.substitute μ, t.predicate.substitute μ, t.object.substitute μ⟩

mutual

def Expr.substitute (μ : Row) : Expr → Expr
  | .always => .always
  | .term t => .term (t.substitute μ)
  | .not e => .not (e.substitute μ)
  | .and l r => .and (l.substitute μ) (r.substitute μ)
  | .or l r => .or (l.substitute μ) (r.substitute μ)
  | .compare op l r => .compare op (l.substitute μ) (r.substitute μ)
  | .exist scope => .exist (Element.substituteAll μ scope)
  | .coalesce args => .coalesce (Expr.substituteAll μ args)
  | .call f args => .call f (Expr.substituteAll μ args)

def Expr.substituteAll (μ : Row) : List Expr → List Expr
  | [] => []
  | e :: rest => e.substitute μ :: Expr.substituteAll μ rest

/-- The element with the values of the row, nested groups included. Targets of bindings stay. -/
def Element.substitute (μ : Row) : Element → Element
  | .triple t => .triple (t.substitute μ)
  | .group inner => .group (Element.substituteAll μ inner)
  | .union branches => .union (Element.substituteBranches μ branches)
  | .optional inner => .optional (Element.substituteAll μ inner)
  | .filter e => .filter (e.substitute μ)
  | .bind e target => .bind (e.substitute μ) target

def Element.substituteAll (μ : Row) : List Element → List Element
  | [] => []
  | e :: rest => e.substitute μ :: Element.substituteAll μ rest

def Element.substituteBranches (μ : Row) : List (List Element) → List (List Element)
  | [] => []
  | g :: rest => Element.substituteAll μ g :: Element.substituteBranches μ rest

end

mutual

/-- The targets of the bindings in the scopes of an expression. -/
def Expr.targets : Expr → List Variable
  | .always => []
  | .term _ => []
  | .not e => e.targets
  | .and l r => l.targets ++ r.targets
  | .or l r => l.targets ++ r.targets
  | .compare _ l r => l.targets ++ r.targets
  | .exist scope => Element.groupTargets scope
  | .coalesce args => Expr.listTargets args
  | .call _ args => Expr.listTargets args

def Expr.listTargets : List Expr → List Variable
  | [] => []
  | e :: rest => e.targets ++ Expr.listTargets rest

/-- The targets of the bindings in an element, those of nested groups included. -/
def Element.targets : Element → List Variable
  | .triple _ => []
  | .group inner => Element.groupTargets inner
  | .union branches => Element.branchTargets branches
  | .optional inner => Element.groupTargets inner
  | .filter e => e.targets
  | .bind e target => e.targets ++ [target]

def Element.groupTargets : List Element → List Variable
  | [] => []
  | e :: rest => e.targets ++ Element.groupTargets rest

def Element.branchTargets : List (List Element) → List Variable
  | [] => []
  | g :: rest => Element.groupTargets g ++ Element.branchTargets rest

end

/-! ## Rows that have the values -/

/-- Whether the second row has a value for those of the variables that the first one binds. -/
def Row.covers (μ : Row) (vars : List Variable) (row : Row) : Bool :=
  vars.all fun v => (μ.value? v).isNone || (row.value? v).isSome

mutual

/-- Whether the row has a value for every variable of `μ` that is read while the expression is
evaluated in it. -/
def Expr.grounded (D : List Quad) (μ : Row) : Expr → Row → Bool
  | .always, _ => true
  | .term t, row => μ.covers t.vars row
  | .not e, row => Expr.grounded D μ e row
  | .and left right, row => Expr.grounded D μ left row && Expr.grounded D μ right row
  | .or left right, row => Expr.grounded D μ left row && Expr.grounded D μ right row
  | .compare _ left right, row => Expr.grounded D μ left row && Expr.grounded D μ right row
  | .exist scope, row =>
    μ.covers (Element.groupVars scope) row && Element.groundedAll D μ scope row &&
      ((Element.steps D scope row).filter μ.agrees).all (Element.filtersGrounded D μ scope)
  | .coalesce args, row => Expr.listGrounded D μ args row
  | .call _ args, row => Expr.listGrounded D μ args row
termination_by structural e => e

def Expr.listGrounded (D : List Quad) (μ : Row) : List Expr → Row → Bool
  | [], _ => true
  | e :: rest, row => Expr.grounded D μ e row && Expr.listGrounded D μ rest row
termination_by structural args => args

/-- Whether bindings and optional groups, in the element and in the groups nested in it, find a
value for every variable of `μ` they read; the filters of nested groups, too. -/
def Element.grounded (D : List Quad) (μ : Row) : Element → Row → Bool
  | .triple _, _ => true
  | .group inner, _ =>
    Element.groundedAll D μ inner .empty &&
      ((Element.steps D inner .empty).filter μ.agrees).all (Element.filtersGrounded D μ inner)
  | .union branches, _ => Element.branchesGrounded D μ branches
  | .optional inner, row =>
    μ.covers (Element.groupVars inner) row && Element.groundedAll D μ inner .empty &&
      (((Element.steps D inner .empty).filterMap row.meet?).filter μ.agrees).all
        (Element.filtersGrounded D μ inner)
  | .filter _, _ => true
  | .bind e target, row => (row.value? target).isSome || Expr.grounded D μ e row
termination_by structural e => e

/-- The same of the elements of a group, in those of its rows that agree with `μ`. -/
def Element.groundedAll (D : List Quad) (μ : Row) : List Element → Row → Bool
  | [], _ => true
  | e :: rest, row =>
    Element.grounded D μ e row &&
      ((Element.step D e row).filter μ.agrees).all (Element.groundedAll D μ rest)
termination_by structural g => g

def Element.branchesGrounded (D : List Quad) (μ : Row) : List (List Element) → Bool
  | [] => true
  | g :: rest =>
    Element.groundedAll D μ g .empty &&
      ((Element.steps D g .empty).filter μ.agrees).all (Element.filtersGrounded D μ g) &&
      Element.branchesGrounded D μ rest
termination_by structural branches => branches

def Element.filterGrounded (D : List Quad) (μ : Row) : Element → Row → Bool
  | .filter e, row => Expr.grounded D μ e row
  | _, _ => true
termination_by structural e => e

def Element.filtersGrounded (D : List Quad) (μ : Row) : List Element → Row → Bool
  | [], _ => true
  | e :: rest, row => Element.filterGrounded D μ e row && Element.filtersGrounded D μ rest row
termination_by structural g => g

end

/-- Whether everything in the group, from a row on, finds a value for the variables of `μ`. -/
def Group.grounded (D : List Quad) (μ : Row) (g : Group) (row : Row) : Bool :=
  Element.groundedAll D μ g row &&
    ((Element.steps D g row).filter μ.agrees).all (Element.filtersGrounded D μ g)

/-! ## Rows beyond a row -/

namespace Row

/-- The row without the variables that another one binds. -/
def without (row μ : Row) : Row :=
  ⟨row.entries.filter fun entry => (μ.get? entry.1).isNone,
    row.sorted.sublist List.filter_sublist⟩

private theorem value?_without (row μ : Row) (v : Variable) :
    (row.without μ).value? v = if (μ.value? v).isSome then none else row.value? v := by
  apply Option.ext
  intro n
  have hentry : (row.without μ).value? v = some n ↔
      row.value? v = some n ∧ (μ.value? v).isNone := by
    rw [value?, ← Table.mem_entries_iff, without, List.mem_filter, Table.mem_entries_iff]
    rfl
  rw [hentry]
  cases μ.value? v <;> simp

private theorem value?_without_of_none {μ : Row} {v : Variable} (h : μ.value? v = none)
    (row : Row) :
    (row.without μ).value? v = row.value? v := by
  simp [value?_without, h]

/-- What a row that agrees with `μ` binds beyond it. -/
def beyond? (μ row : Row) : Option Row := if μ.agrees row then some (row.without μ) else none

private theorem beyond?_eq_some_iff {μ row rest : Row} :
    μ.beyond? row = some rest ↔ μ.agrees row = true ∧ row.without μ = rest := by
  simp [beyond?]

private theorem beyond?_of_agrees {μ row : Row} (h : μ.agrees row = true) :
    μ.beyond? row = some (row.without μ) := if_pos h

private theorem beyond?_eq_none_iff {μ row : Row} :
    μ.beyond? row = none ↔ μ.agrees row = false := by
  simp [beyond?]

private theorem beyond?_empty (μ : Row) : μ.beyond? .empty = some .empty := by
  rw [beyond?_eq_some_iff]
  exact ⟨(Below.refl μ).agrees (empty_below μ), rfl⟩

private theorem beyond?_self (μ : Row) : μ.beyond? μ = some .empty := by
  rw [beyond?_eq_some_iff]
  constructor
  · exact (Below.refl μ).agrees (Below.refl μ)
  · apply ext_value?
    intro v
    cases h : μ.value? v <;> simp [value?_without, h]

private theorem agrees_of_below {μ row row' : Row} (h : row.Below row')
    (hagrees : μ.agrees row' = true) :
    μ.agrees row = true := by
  rw [agrees_iff] at hagrees ⊢
  intro v n m hn hm
  exact hagrees v n m hn (h v m hm)

private theorem beyond?_eq_none_of_below {μ row row' : Row} (h : row.Below row')
    (hnone : μ.beyond? row = none) : μ.beyond? row' = none := by
  rw [beyond?_eq_none_iff] at hnone ⊢
  by_contra hagrees
  rw [agrees_of_below h (by simpa using hagrees)] at hnone
  cases hnone

private theorem beyond?_bind {μ row rest : Row} {v : Variable} (hv : μ.value? v = none)
    (h : μ.beyond? row = some rest) (n : Node) :
    μ.beyond? (row.bind v n) = some (rest.bind v n) := by
  obtain ⟨hagrees, rfl⟩ := beyond?_eq_some_iff.mp h
  rw [beyond?_eq_some_iff]
  constructor
  · rw [agrees_iff] at hagrees ⊢
    intro w k m hk hm
    have hne : w ≠ v := fun heq => by simp [heq, hv] at hk
    rw [value?_bind, if_neg hne] at hm
    exact hagrees w k m hk hm
  · apply ext_value?
    intro w
    by_cases hw : w = v
    · simp [hw, value?_without, hv]
    · simp [hw, value?_without]

private theorem beyond?_bind_of_some {μ row : Row} {v : Variable} {k : Node}
    (hv : μ.value? v = some k) (hnone : row.value? v = none) (n : Node) :
    μ.beyond? (row.bind v n) = if k = n then μ.beyond? row else none := by
  by_cases hkn : k = n
  · subst hkn
    rw [if_pos rfl, beyond?, beyond?]
    have hagrees : μ.agrees (row.bind v k) = μ.agrees row := by
      rw [Bool.eq_iff_iff]
      constructor
      · exact agrees_of_below (below_bind hnone)
      · intro h
        rw [agrees_iff] at h ⊢
        intro w n m hn hm
        by_cases hw : w = v
        · subst hw
          have hkn : k = n := by simpa [hv] using hn
          have hkm : k = m := by simpa using hm
          exact hkn.symm.trans hkm
        · rw [value?_bind, if_neg hw] at hm
          exact h w n m hn hm
    have hwithout : (row.bind v k).without μ = row.without μ := by
      apply ext_value?
      intro w
      by_cases hw : w = v
      · simp [hw, value?_without, hv]
      · simp [hw, value?_without]
    rw [hagrees, hwithout]
  · rw [if_neg hkn, beyond?_eq_none_iff]
    by_contra hagrees
    have hagrees' : μ.agrees (row.bind v n) = true := by simpa using hagrees
    rw [agrees_iff] at hagrees'
    exact hkn (hagrees' v k n hv (by simp))

private theorem agrees_meet? {μ row x m : Row} (hrow : μ.agrees row = true) (hx : μ.agrees x = true)
    (hm : row.meet? x = some m) : μ.agrees m = true := by
  rw [agrees_iff] at hrow hx ⊢
  intro v n k hn hk
  rw [(meet?_spec hm).2.2] at hk
  cases hv : row.value? v with
  | none =>
    rw [hv] at hk
    exact hx v n k hn hk
  | some k' =>
    rw [hv] at hk
    exact hrow v n k hn (hv.trans hk)

private theorem agrees_of_without {μ row x : Row} (hrow : μ.agrees row = true)
    (hx : μ.agrees x = true) (h : (row.without μ).agrees (x.without μ) = true) :
    row.agrees x = true := by
  rw [agrees_iff] at hrow hx h ⊢
  intro v n k hn hk
  cases hv : μ.value? v with
  | some j => exact (hrow v j n hv hn).symm.trans (hx v j k hv hk)
  | none =>
    apply h v n k
    · rwa [value?_without_of_none hv]
    · rwa [value?_without_of_none hv]

private theorem meet?_without {row x m : Row} (hm : row.meet? x = some m) (μ : Row) :
    (row.without μ).meet? (x.without μ) = some (m.without μ) := by
  obtain ⟨hrow, hx, hvalue⟩ := meet?_spec hm
  have hbelow {l : Row} (hl : l.Below m) : (l.without μ).Below (m.without μ) := by
    intro v n hn
    rw [value?_without] at hn ⊢
    split at hn
    · cases hn
    · next hv => rw [if_neg hv, hl v n hn]
  apply meet?_eq_some_of (hbelow hrow) (hbelow hx)
  intro v
  simp only [value?_without]
  split
  · rfl
  · exact hvalue v

private theorem meet?_bind_beyond? {μ row rest : Row} (h : μ.beyond? row = some rest) (x : Row) :
    (row.meet? x).bind μ.beyond? = (μ.beyond? x).bind rest.meet? := by
  obtain ⟨hrow, rfl⟩ := beyond?_eq_some_iff.mp h
  cases hx : μ.beyond? x with
  | none =>
    cases hm : row.meet? x with
    | none => rfl
    | some m => exact beyond?_eq_none_of_below (meet?_spec hm).2.1 hx
  | some xrest =>
    obtain ⟨hagrees, rfl⟩ := beyond?_eq_some_iff.mp hx
    rw [Option.bind_some]
    cases hm : row.meet? x with
    | some m =>
      rw [Option.bind_some, beyond?_of_agrees (agrees_meet? hrow hagrees hm), meet?_without hm]
    | none =>
      cases hrest : (row.without μ).meet? (x.without μ) with
      | none => rfl
      | some m =>
        have hmet := agrees_of_without hrow hagrees (meet?_eq_some_iff.mp hrest).1
        simp [meet?, hmet] at hm

private theorem filterMap_beyond?_meet? {μ row rest : Row} (h : μ.beyond? row = some rest)
    (xs : List Row) :
    (xs.filterMap μ.beyond?).filterMap rest.meet? =
      (xs.filterMap row.meet?).filterMap μ.beyond? := by
  rw [List.filterMap_filterMap, List.filterMap_filterMap]
  congr 1
  funext x
  exact (meet?_bind_beyond? h x).symm

private theorem Grows.agrees {μ row row' : Row} {vars : List Variable} (h : row.Grows vars row')
    (hagrees : μ.agrees row = true) (hcovers : μ.covers vars row = true) :
    μ.agrees row' = true := by
  rw [agrees_iff] at hagrees ⊢
  intro v n m hn hm
  by_cases hv : v ∈ vars
  · have hsome := List.all_eq_true.mp hcovers v hv
    rw [hn] at hsome
    obtain ⟨k, hk⟩ := Option.isSome_iff_exists.mp (by simpa using hsome)
    have hmk : m = k := by simpa [h.below v k hk] using hm.symm
    exact hmk ▸ hagrees v n k hn hk
  · rw [h.outside v hv] at hm
    exact hagrees v n m hn hm

end Row

/-! ## Evaluation after substitution -/

private theorem Term.beyond?_bind_unify (t : Term) (n : Node) (μ y : Row) :
    (μ.beyond? y).bind ((t.substitute μ).unify n) = (t.unify n y).bind μ.beyond? := by
  cases hy : μ.beyond? y with
  | none =>
    cases hz : t.unify n y with
    | none => rfl
    | some z => exact (Row.beyond?_eq_none_of_below (Term.unify_grows hz).below hy).symm
  | some rest =>
    obtain ⟨hagrees, hrest⟩ := Row.beyond?_eq_some_iff.mp hy
    cases t with
    | node m =>
      by_cases hm : m = n <;> simp [Term.substitute, unify, value?, hm, hy]
    | var v =>
      cases hμ : μ.value? v with
      | some k =>
        cases hv : y.value? v with
        | some m =>
          have hkm : k = m := Row.agrees_iff.mp hagrees v k m hμ hv
          by_cases hm : m = n <;> simp [Term.substitute, unify, value?, hμ, hv, hkm, hm, hy]
        | none =>
          have hbind := Row.beyond?_bind_of_some hμ hv n
          by_cases hk : k = n <;>
            simp [Term.substitute, unify, value?, hμ, hv, hk, hbind, hy]
      | none =>
        have hvalue : rest.value? v = y.value? v := by
          rw [← hrest, Row.value?_without_of_none hμ]
        cases hv : y.value? v with
        | some m =>
          by_cases hm : m = n <;> simp [Term.substitute, unify, value?, hμ, hvalue, hv, hm, hy]
        | none =>
          simp [Term.substitute, unify, value?, hμ, hvalue, hv, Row.beyond?_bind hμ hy]

private theorem TriplePattern.beyond?_bind_unify (t : TriplePattern) (q : Quad) (μ y : Row) :
    (μ.beyond? y).bind ((t.substitute μ).unify · q) = (t.unify y q).bind μ.beyond? :=
  TriplePattern.bind_unify (fun n => Term.beyond?_bind_unify _ n μ)
    (fun n => Term.beyond?_bind_unify _ n μ) (fun n => Term.beyond?_bind_unify _ n μ) q y

private theorem Term.value?_substitute {t : Term} {μ y rest : Row} (hy : μ.beyond? y = some rest)
    (hcovers : μ.covers t.vars y = true) : (t.substitute μ).value? rest = t.value? y := by
  obtain ⟨hagrees, rfl⟩ := Row.beyond?_eq_some_iff.mp hy
  cases t with
  | node n => rfl
  | var v =>
    cases hμ : μ.value? v with
    | none => simp [Term.substitute, hμ, value?, Row.value?_without_of_none hμ]
    | some n =>
      have hsome : (y.value? v).isSome := by simpa [Row.covers, Term.vars, hμ] using hcovers
      obtain ⟨m, hm⟩ := Option.isSome_iff_exists.mp hsome
      have hnm : n = m := Row.agrees_iff.mp hagrees v n m hμ hm
      simp [Term.substitute, hμ, value?, hm, hnm]

namespace Row

variable {μ : Row}

private theorem filterMap_beyond?_eq_nil {row : Row} {rows : List Row} (h : μ.beyond? row = none)
    (hrows : ∀ next ∈ rows, row.Below next) : rows.filterMap μ.beyond? = [] := by
  rw [List.filterMap_eq_nil_iff]
  intro next hnext
  exact beyond?_eq_none_of_below (hrows next hnext) h

private theorem flatMap_filterMap_beyond? {rows : List Row} {f f' : Row → List Row}
    (h : ∀ row ∈ rows, ∀ rest, μ.beyond? row = some rest →
      f' rest = (f row).filterMap μ.beyond?)
    (hgrows : ∀ row, ∀ next ∈ f row, row.Below next) :
    (rows.filterMap μ.beyond?).flatMap f' = (rows.flatMap f).filterMap μ.beyond? := by
  induction rows with
  | nil => rfl
  | cons row rows ih =>
    have hrest := ih fun row hrow => h row (.tail _ hrow)
    rw [List.flatMap_cons, List.filterMap_append, ← hrest]
    cases hrow : μ.beyond? row with
    | none =>
      rw [List.filterMap_cons_none hrow, filterMap_beyond?_eq_nil hrow (hgrows row),
        List.nil_append]
    | some rest =>
      rw [List.filterMap_cons_some hrow, List.flatMap_cons, h row (.head _) rest hrow]

private theorem filter_filterMap_beyond? {rows : List Row} {p p' : Row → Bool}
    (h : ∀ row ∈ rows, ∀ rest, μ.beyond? row = some rest → p' rest = p row) :
    (rows.filterMap μ.beyond?).filter p' = (rows.filter p).filterMap μ.beyond? := by
  induction rows with
  | nil => rfl
  | cons row rows ih =>
    have hrest := ih fun row hrow => h row (.tail _ hrow)
    cases hrow : μ.beyond? row with
    | none =>
      rw [List.filterMap_cons_none hrow, hrest, List.filter_cons]
      split
      · rw [List.filterMap_cons_none hrow]
      · rfl
    | some rest =>
      rw [List.filterMap_cons_some hrow, List.filter_cons, List.filter_cons, hrest,
        h row (.head _) rest hrow]
      split
      · rw [List.filterMap_cons_some hrow]
      · rfl

private theorem isEmpty_filterMap_beyond? {rows : List Row}
    (h : ∀ row ∈ rows, μ.agrees row = true) :
    (rows.filterMap μ.beyond?).isEmpty = rows.isEmpty := by
  cases rows with
  | nil => rfl
  | cons row rows => rw [List.filterMap_cons_some (beyond?_of_agrees (h row (.head _)))]; rfl

end Row

section

variable {D : List Quad} {μ : Row}

/-- The filters of a group decide alike before and after substitution. -/
def Element.HoldAlike (D : List Quad) (μ : Row) (g g' : List Element) : Prop :=
  ∀ row rest, μ.beyond? row = some rest → Element.filtersGrounded D μ g row = true →
    Element.holdAll D g' rest = Element.holdAll D g row

private theorem Element.HoldAlike.filter {g g' : List Element} (hholds : Element.HoldAlike D μ g g')
    {rows : List Row}
    (h : (rows.filter μ.agrees).all (Element.filtersGrounded D μ g) = true) :
    (rows.filterMap μ.beyond?).filter (Element.holdAll D g') =
      (rows.filter (Element.holdAll D g)).filterMap μ.beyond? := by
  apply Row.filter_filterMap_beyond?
  intro row hrow rest hrest
  have hagrees := (Row.beyond?_eq_some_iff.mp hrest).1
  simp only [List.all_eq_true, List.mem_filter] at h
  exact hholds row rest hrest (h row ⟨hrow, hagrees⟩)

mutual

private theorem Expr.value?_substitute (e : Expr) {y rest : Row} (hy : μ.beyond? y = some rest)
    (htargets : ∀ v ∈ e.targets, μ.value? v = none) (h : Expr.grounded D μ e y = true) :
    Expr.value? D (e.substitute μ) rest = Expr.value? D e y := by
  cases e with
  | always => rfl
  | term t => exact Term.value?_substitute hy h
  | not e =>
    simp only [Expr.substitute, Expr.value?, Expr.value?_substitute e hy htargets h]
  | and l r =>
    simp only [Expr.targets, List.forall_mem_append] at htargets
    simp only [Expr.grounded, Bool.and_eq_true] at h
    simp only [Expr.substitute, Expr.value?, Expr.value?_substitute l hy htargets.1 h.1,
      Expr.value?_substitute r hy htargets.2 h.2]
  | or l r =>
    simp only [Expr.targets, List.forall_mem_append] at htargets
    simp only [Expr.grounded, Bool.and_eq_true] at h
    simp only [Expr.substitute, Expr.value?, Expr.value?_substitute l hy htargets.1 h.1,
      Expr.value?_substitute r hy htargets.2 h.2]
  | compare op l r =>
    simp only [Expr.targets, List.forall_mem_append] at htargets
    simp only [Expr.grounded, Bool.and_eq_true] at h
    simp only [Expr.substitute, Expr.value?, Expr.value?_substitute l hy htargets.1 h.1,
      Expr.value?_substitute r hy htargets.2 h.2]
  | exist scope =>
    simp only [Expr.grounded, Bool.and_eq_true] at h
    have hagrees := (Row.beyond?_eq_some_iff.mp hy).1
    have hholds := Element.holdAlike_substitute scope htargets
    have hall : ∀ row ∈ (Element.steps D scope y).filter (Element.holdAll D scope),
        μ.agrees row = true := by
      intro row hrow
      exact (Element.steps_grows (List.mem_filter.mp hrow).1).agrees hagrees h.1.1
    simp only [Expr.substitute, Expr.value?, Element.steps_substitute scope hy htargets h.1.2,
      hholds.filter h.2, Row.isEmpty_filterMap_beyond? hall]
  | coalesce args => exact Expr.firstValue?_substitute args hy htargets h
  | call f args =>
    simp only [Expr.substitute, Expr.value?, Expr.values?_substitute args hy htargets h]

private theorem Expr.firstValue?_substitute (args : List Expr) {y rest : Row}
    (hy : μ.beyond? y = some rest) (htargets : ∀ v ∈ Expr.listTargets args, μ.value? v = none)
    (h : Expr.listGrounded D μ args y = true) :
    Expr.firstValue? D (Expr.substituteAll μ args) rest = Expr.firstValue? D args y := by
  cases args with
  | nil => rfl
  | cons e args =>
    simp only [Expr.listTargets, List.forall_mem_append] at htargets
    simp only [Expr.listGrounded, Bool.and_eq_true] at h
    simp only [Expr.substituteAll, Expr.firstValue?, Expr.value?_substitute e hy htargets.1 h.1,
      Expr.firstValue?_substitute args hy htargets.2 h.2]

private theorem Expr.values?_substitute (args : List Expr) {y rest : Row}
    (hy : μ.beyond? y = some rest) (htargets : ∀ v ∈ Expr.listTargets args, μ.value? v = none)
    (h : Expr.listGrounded D μ args y = true) :
    Expr.values? D (Expr.substituteAll μ args) rest = Expr.values? D args y := by
  cases args with
  | nil => rfl
  | cons e args =>
    simp only [Expr.listTargets, List.forall_mem_append] at htargets
    simp only [Expr.listGrounded, Bool.and_eq_true] at h
    simp only [Expr.substituteAll, Expr.values?, Expr.value?_substitute e hy htargets.1 h.1,
      Expr.values?_substitute args hy htargets.2 h.2]

private theorem Element.step_substitute (e : Element) {y rest : Row} (hy : μ.beyond? y = some rest)
    (htargets : ∀ v ∈ e.targets, μ.value? v = none) (h : Element.grounded D μ e y = true) :
    Element.step D (e.substitute μ) rest = (Element.step D e y).filterMap μ.beyond? := by
  cases e with
  | triple t =>
    simp only [Element.substitute, Element.step, List.filterMap_filterMap,
      ← TriplePattern.beyond?_bind_unify, hy, Option.bind_some]
  | group inner =>
    simp only [Element.grounded, Bool.and_eq_true] at h
    have hholds := Element.holdAlike_substitute inner htargets
    simp only [Element.substitute, Element.step,
      Element.steps_substitute inner μ.beyond?_empty htargets h.1, hholds.filter h.2]
    exact Row.filterMap_beyond?_meet? hy _
  | union branches =>
    simp only [Element.substitute, Element.step,
      Element.branchSteps_substitute branches htargets h]
    exact Row.filterMap_beyond?_meet? hy _
  | optional inner =>
    simp only [Element.grounded, Bool.and_eq_true] at h
    have hagrees := (Row.beyond?_eq_some_iff.mp hy).1
    have hholds := Element.holdAlike_substitute inner htargets
    have hall : ∀ row ∈ ((Element.steps D inner .empty).filterMap y.meet?).filter
        (Element.holdAll D inner), μ.agrees row = true := by
      intro row hrow
      obtain ⟨x, hx, hmeet⟩ := List.mem_filterMap.mp (List.mem_filter.mp hrow).1
      have hgrows : y.Grows (Element.groupVars inner) row :=
        .meet (fun v hv => (Element.steps_grows hx).outside v hv) hmeet
      exact hgrows.agrees hagrees h.1.1
    simp only [Element.substitute, Element.step,
      Element.steps_substitute inner μ.beyond?_empty htargets h.1.2,
      Row.filterMap_beyond?_meet? hy, hholds.filter h.2, Row.isEmpty_filterMap_beyond? hall]
    split
    · simp [hy]
    · rfl
  | filter e => simp [Element.substitute, Element.step, hy]
  | bind e target =>
    simp only [Element.targets, List.forall_mem_append] at htargets
    have htarget : μ.value? target = none := htargets.2 target (.head _)
    have hvalue : rest.value? target = y.value? target := by
      rw [← (Row.beyond?_eq_some_iff.mp hy).2, Row.value?_without_of_none htarget]
    simp only [Element.substitute, Element.step, hvalue]
    by_cases hbound : (y.value? target).isSome
    · simp [hbound, hy]
    · have hgrounded : Expr.grounded D μ e y = true := by
        simpa [Element.grounded, hbound] using h
      simp only [hbound, Expr.value?_substitute e hy htargets.1 hgrounded]
      cases Expr.value? D e y with
      | none => simp [hy]
      | some n => simp [Row.beyond?_bind htarget hy]

private theorem Element.steps_substitute (g : List Element) {y rest : Row}
    (hy : μ.beyond? y = some rest) (htargets : ∀ v ∈ Element.groupTargets g, μ.value? v = none)
    (h : Element.groundedAll D μ g y = true) :
    Element.steps D (Element.substituteAll μ g) rest =
      (Element.steps D g y).filterMap μ.beyond? := by
  cases g with
  | nil => simp [Element.substituteAll, Element.steps, hy]
  | cons e g =>
    simp only [Element.groupTargets, List.forall_mem_append] at htargets
    simp only [Element.groundedAll, Bool.and_eq_true, List.all_eq_true, List.mem_filter] at h
    simp only [Element.substituteAll, Element.steps,
      Element.step_substitute e hy htargets.1 h.1]
    apply Row.flatMap_filterMap_beyond?
    · intro next hnext rest hrest
      have hagrees := (Row.beyond?_eq_some_iff.mp hrest).1
      exact Element.steps_substitute g hrest htargets.2 (h.2 next ⟨hnext, hagrees⟩)
    · intro row next hnext
      exact (Element.steps_grows hnext).below

private theorem Element.branchSteps_substitute (branches : List (List Element))
    (htargets : ∀ v ∈ Element.branchTargets branches, μ.value? v = none)
    (h : Element.branchesGrounded D μ branches = true) :
    Element.branchSteps D (Element.substituteBranches μ branches) =
      (Element.branchSteps D branches).filterMap μ.beyond? := by
  cases branches with
  | nil => rfl
  | cons g branches =>
    simp only [Element.branchTargets, List.forall_mem_append] at htargets
    simp only [Element.branchesGrounded, Bool.and_eq_true] at h
    have hholds := Element.holdAlike_substitute g htargets.1
    simp only [Element.substituteBranches, Element.branchSteps, List.filterMap_append,
      Element.steps_substitute g μ.beyond?_empty htargets.1 h.1.1, hholds.filter h.1.2,
      Element.branchSteps_substitute branches htargets.2 h.2]

private theorem Element.hold_substitute (e : Element) {y rest : Row} (hy : μ.beyond? y = some rest)
    (htargets : ∀ v ∈ e.targets, μ.value? v = none)
    (h : Element.filterGrounded D μ e y = true) :
    Element.hold D (e.substitute μ) rest = Element.hold D e y := by
  cases e with
  | filter e =>
    simp only [Element.substitute, Element.hold, Expr.value?_substitute e hy htargets h]
  | _ => rfl

private theorem Element.holdAlike_substitute (g : List Element)
    (htargets : ∀ v ∈ Element.groupTargets g, μ.value? v = none) :
    Element.HoldAlike D μ g (Element.substituteAll μ g) := by
  intro y rest hy h
  cases g with
  | nil => rfl
  | cons e g =>
    simp only [Element.groupTargets, List.forall_mem_append] at htargets
    simp only [Element.filtersGrounded, Bool.and_eq_true] at h
    simp only [Element.substituteAll, Element.holdAll,
      Element.hold_substitute e hy htargets.1 h.1,
      Element.holdAlike_substitute g htargets.2 y rest hy h.2]

end

/-- The rows of a group after substitution are its rows from `μ` on, without the variables of
`μ`. -/
theorem Group.found_substitute {g : Group}
    (htargets : ∀ v ∈ Element.groupTargets g, μ.value? v = none)
    (h : Group.grounded D μ g μ = true) :
    Group.found D (Element.substituteAll μ g) .empty = (Group.found D g μ).map (·.without μ) := by
  simp only [Group.grounded, Bool.and_eq_true] at h
  have hholds : Element.HoldAlike D μ g (Element.substituteAll μ g) :=
    Element.holdAlike_substitute g htargets
  have hfound : Group.found D (Element.substituteAll μ g) .empty =
      (Group.found D g μ).filterMap μ.beyond? := by
    simp only [Group.found, Element.steps_substitute g μ.beyond?_self htargets h.1,
      hholds.filter h.2]
  rw [hfound, List.filterMap_eq_map_iff_forall_eq_some]
  intro row hrow
  have hbelow : μ.Below row := (Group.found_grows hrow).below
  exact Row.beyond?_of_agrees (hbelow.agrees (.refl row))

end

/-! ## Scopes without nested groups -/

mutual

/-- No group, alternative or optional group stands in a scope of the expression. -/
def Expr.isFlat : Expr → Bool
  | .always => true
  | .term _ => true
  | .not e => e.isFlat
  | .and l r => l.isFlat && r.isFlat
  | .or l r => l.isFlat && r.isFlat
  | .compare _ l r => l.isFlat && r.isFlat
  | .exist scope => Element.allFlat scope
  | .coalesce args => Expr.allFlat args
  | .call _ args => Expr.allFlat args

def Expr.allFlat : List Expr → Bool
  | [] => true
  | e :: rest => e.isFlat && Expr.allFlat rest

def Element.isFlat : Element → Bool
  | .triple _ => true
  | .group _ => false
  | .union _ => false
  | .optional _ => false
  | .filter e => e.isFlat
  | .bind e _ => e.isFlat

def Element.allFlat : List Element → Bool
  | [] => true
  | e :: rest => e.isFlat && Element.allFlat rest

end

private theorem Row.Below.covers {μ row : Row} (h : μ.Below row) (vars : List Variable) :
    μ.covers vars row = true := by
  rw [Row.covers, List.all_eq_true]
  intro v _
  cases hv : μ.value? v with
  | none => rfl
  | some n => simp [h v n hv]

section

variable {D : List Quad} {μ : Row}

mutual

private theorem Expr.grounded_of_flat (e : Expr) {row : Row} (h : e.isFlat = true)
    (hrow : μ.Below row) :
    Expr.grounded D μ e row = true := by
  cases e with
  | always => rfl
  | term t => exact hrow.covers t.vars
  | not e => exact Expr.grounded_of_flat e h hrow
  | and l r =>
    simp only [Expr.isFlat, Bool.and_eq_true] at h
    simp only [Expr.grounded, Expr.grounded_of_flat l h.1 hrow, Expr.grounded_of_flat r h.2 hrow,
      Bool.and_self]
  | or l r =>
    simp only [Expr.isFlat, Bool.and_eq_true] at h
    simp only [Expr.grounded, Expr.grounded_of_flat l h.1 hrow, Expr.grounded_of_flat r h.2 hrow,
      Bool.and_self]
  | compare op l r =>
    simp only [Expr.isFlat, Bool.and_eq_true] at h
    simp only [Expr.grounded, Expr.grounded_of_flat l h.1 hrow, Expr.grounded_of_flat r h.2 hrow,
      Bool.and_self]
  | exist scope =>
    simp only [Expr.grounded, Bool.and_eq_true, List.all_eq_true, List.mem_filter]
    have hscope : Element.allFlat scope = true := h
    refine ⟨⟨hrow.covers _, Element.groundedAll_of_flat scope hscope hrow⟩, ?_⟩
    intro next hnext
    have hgrows := Element.steps_grows hnext.1
    exact Element.filtersGrounded_of_flat scope hscope (hrow.trans hgrows.below)
  | coalesce args => exact Expr.listGrounded_of_flat args h hrow
  | call f args => exact Expr.listGrounded_of_flat args h hrow

private theorem Expr.listGrounded_of_flat (args : List Expr) {row : Row}
    (h : Expr.allFlat args = true) (hrow : μ.Below row) :
    Expr.listGrounded D μ args row = true := by
  cases args with
  | nil => rfl
  | cons e args =>
    simp only [Expr.allFlat, Bool.and_eq_true] at h
    simp only [Expr.listGrounded, Expr.grounded_of_flat e h.1 hrow,
      Expr.listGrounded_of_flat args h.2 hrow, Bool.and_self]

private theorem Element.groundedAll_of_flat (g : List Element) {row : Row}
    (h : Element.allFlat g = true) (hrow : μ.Below row) :
    Element.groundedAll D μ g row = true := by
  cases g with
  | nil => rfl
  | cons e g =>
    simp only [Element.allFlat, Bool.and_eq_true] at h
    simp only [Element.groundedAll, Bool.and_eq_true, List.all_eq_true, List.mem_filter]
    constructor
    · cases e with
      | triple t => rfl
      | filter e => rfl
      | bind e target =>
        simp only [Element.grounded, Expr.grounded_of_flat e h.1 hrow, Bool.or_true]
      | group inner => cases h.1
      | union branches => cases h.1
      | optional inner => cases h.1
    · intro next hnext
      exact Element.groundedAll_of_flat g h.2 (hrow.trans (Element.step_grows hnext.1).below)

private theorem Element.filtersGrounded_of_flat (g : List Element) {row : Row}
    (h : Element.allFlat g = true) (hrow : μ.Below row) :
    Element.filtersGrounded D μ g row = true := by
  cases g with
  | nil => rfl
  | cons e g =>
    simp only [Element.allFlat, Bool.and_eq_true] at h
    simp only [Element.filtersGrounded, Bool.and_eq_true]
    constructor
    · cases e with
      | filter e => exact Expr.grounded_of_flat e h.1 hrow
      | _ => rfl
    · exact Element.filtersGrounded_of_flat g h.2 hrow

end

private theorem Group.grounded_of_flat {g : Group} (h : Element.allFlat g = true) :
    Group.grounded D μ g μ = true := by
  simp only [Group.grounded, Bool.and_eq_true, List.all_eq_true, List.mem_filter]
  constructor
  · exact Element.groundedAll_of_flat g h (.refl μ)
  · intro row hrow
    exact Element.filtersGrounded_of_flat g h (Element.steps_grows hrow.1).below

end

/-! ## Scopes in a row -/

/-- If no binding in a scope has a variable of the row as its target, and whatever reads such a
variable finds a value for it, the scope holds in the row exactly if it has a row after the values
are put in the place of the variables. -/
theorem Group.exist_iff_substituted {D : List Quad} {cap cap' : Nat} {g : Group} {μ : Row}
    {value : Option Node} {rows : List Row}
    (htargets : ∀ v ∈ Element.groupTargets g, μ.value? v = none)
    (hgrounded : Group.grounded D μ g μ = true)
    (hexist : Expr.eval ⟨D, cap⟩ (.exist g) μ = .ok value)
    (hrows : Group.rows ⟨D, cap'⟩ (Element.substituteAll μ g) [.empty] = .ok rows) :
    truth? value = some true ↔ rows ≠ [] := by
  have hfound : rows = (Group.found D g μ).map (·.without μ) := by
    rw [Group.rows_eq_found hrows]
    exact Group.found_substitute htargets hgrounded
  have hvalue : value = ofTruth (some !(Group.found D g μ).isEmpty) := by
    have hsettles : Settles (fun cap => Expr.eval ⟨D, cap⟩ (.exist g) μ) _ :=
      ⟨_, Expr.eval_settlesAt D (.exist g) μ⟩
    exact hsettles.eq_of_ok hexist
  rw [hvalue, hfound, truth?_ofTruth]
  simp

/-- A scope with every kind of nested group, each of which reads the variable of the row only where
it has a value. -/
theorem Group.exist_iff_substituted_nested :
    let x : Variable := ⟨"x"⟩
    let y : Variable := ⟨"y"⟩
    let z : Variable := ⟨"z"⟩
    let p : Iri := ⟨"http://e/p"⟩
    let a : Iri := ⟨"http://e/a"⟩
    let b : Iri := ⟨"http://e/b"⟩
    let D : List Quad := [⟨a, p, .iri b, none⟩, ⟨b, p, .iri a, none⟩]
    let link (s o : Variable) : Element := .ofTriple (.var s) (.iri p) (.var o)
    let reads : Element := .filter (.equals (.var x) (.term (.iri a)))
    let g : Group := [.group [link x y, reads], .union [[link y x, reads], [link x z]],
      .optional [link z x], .bind (.call .str [.var x]) ⟨"w"⟩,
      .filter (.exist [.group [link x y, .filter (.exist [link y x, reads])]])]
    let μ : Row := Row.bind .empty x (.iri a)
    Group.grounded D μ g μ = true ∧ ∃ rows,
      Group.rows ⟨D, 9⟩ (Element.substituteAll μ g) [.empty] = .ok rows ∧ rows.length = 2 ∧
      (truth? (some (.literal (.boolean true))) = some true ↔ rows ≠ []) := by
  intro x y z p a b D link reads g μ
  have htargets : ∀ v ∈ Element.groupTargets g, μ.value? v = none := by decide +kernel
  have hgrounded : Group.grounded D μ g μ = true := by decide +kernel
  have hexist : Expr.eval ⟨D, 9⟩ (.exist g) μ = .ok (some (.literal (.boolean true))) := by
    decide +kernel
  have hlength : (Group.rows ⟨D, 9⟩ (Element.substituteAll μ g) [.empty]).toOption.any
      (·.length = 2) = true := by decide +kernel
  cases hrows : Group.rows ⟨D, 9⟩ (Element.substituteAll μ g) [.empty] with
  | error e =>
    rw [hrows] at hlength
    cases hlength
  | ok rows =>
    rw [hrows] at hlength
    refine ⟨hgrounded, rows, rfl, by simpa [Except.toOption] using hlength, ?_⟩
    exact Group.exist_iff_substituted htargets hgrounded hexist hrows

/-- Neither a filter nor a binding nor an optional group, inside a nested group, sees the row in
which the scope is evaluated: the scope fails although it has a row once the value is put in the
place of the variable. -/
theorem Group.exist_unsubstituted_nested :
    let x : Variable := ⟨"x"⟩
    let w : Variable := ⟨"w"⟩
    let p : Iri := ⟨"http://e/p"⟩
    let a : Iri := ⟨"http://e/a"⟩
    let b : Iri := ⟨"http://e/b"⟩
    let D : List Quad := [⟨b, p, .iri b, none⟩]
    let filtered : Group := [.group [.filter (.equals (.var x) (.term (.iri a)))]]
    let bound : Group := [.group [.bind (.call .str [.var x]) w],
      .filter (.equals (.var w) (.literal (.plain a.text)))]
    let extended : Group := [.group [.optional [.ofTriple (.var x) (.iri p) (.var w)]]]
    let μ : Row := Row.bind .empty x (.iri a)
    ∀ g ∈ [filtered, bound, extended], (∀ v ∈ Element.groupTargets g, μ.value? v = none) ∧
      Expr.eval ⟨D, 9⟩ (.exist g) μ = .ok (some (.literal (.boolean false))) ∧
      (Group.rows ⟨D, 9⟩ (Element.substituteAll μ g) [.empty]).toOption.any
        (·.length = 1) = true := by
  decide +kernel

end GraphPath
