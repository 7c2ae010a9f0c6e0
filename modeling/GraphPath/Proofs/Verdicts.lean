import GraphPath.Proofs.Faults
import GraphPath.Proofs.Navigation
import GraphPath.Proofs.Stillness
import GraphPath.Proofs.Unions

/-!
# Verdicts of tests

A test in a scope of its own has a verdict on the value of its context: it is true, false, or has no
truth value. The verdict depends neither on the names of variables nor on what else a row binds, and
the verdict of a compound test is told by those of its parts. The value may be missing, for the
output of a selector need not have one.
-/

namespace GraphPath

open Emit Compile

/-- The verdict of a test on the value of its context, if it has one. -/
def Test.verdict (D : List Quad) (limits : RecursionLimits) (t : Test) (value : Option Node) :
    Option Bool :=
  let a := Allocator.ofSettings {}
  match enclosed (test .builtin limits t a.root) a with
  | .ok em => truth? (Expr.value? D em.value (Row.single a.root value))
  | .error _ => none

section

variable {D : List Quad} {limits : RecursionLimits} {t : Test} {context : Variable}
  {a : Allocator} {em : Emission Expr}

/-- A condition compiled in a scope of its own has the verdict on the value of the context, in every
row that does not bind the variables of the scope. -/
theorem truth?_enclosed (hcontext : ¬ a.Pending context)
    (hem : enclosed (test .builtin limits t context) a = .ok em) {y : Row}
    (hy : ∀ v, a.Spent em.allocator v → y.value? v = none) :
    truth? (Expr.value? D em.value y) = t.verdict D limits (y.value? context) := by
  let b := Allocator.ofSettings {}
  have hroot : ¬ b.Pending b.root := b.root_not_pending
  have hρ := Allocator.injOn_relabel hcontext hroot
  obtain ⟨em', hem', hrenamed⟩ := mimics_enclosed
    (mimics_test hρ limits t (Allocator.renamed_context hcontext)) a b em
    Allocator.tracks_relabel hem
  obtain ⟨-, hvars⟩ := stays_enclosed (stays_test limits t context) a em hem
  have hmirrors : Row.Mirrors (a.relabel b.root b) {v | v = context ∨ a.Spent em.allocator v} y
      (Row.single b.root (y.value? context)) := by
    rintro v (rfl | hv)
    · rw [Allocator.relabel_context hcontext, Row.value?_single, if_pos rfl]
    · obtain ⟨i, hi⟩ := hv.1
      have hne : b.nth i ≠ b.root := fun heq => hroot ⟨i, heq.symm⟩
      rw [hy v hv, hi, Allocator.relabel_nth, Row.value?_single, if_neg hne]
  have hsub : {v | v = context ∨ a.Spent em.allocator v} ⊆ a.scope context :=
    fun v hv => hv.imp_right And.left
  have hvalue := Expr.value?_rename (hρ.mono hsub) D em.value hvars hmirrors
  rw [← hrenamed.value] at hvalue
  rw [Test.verdict, ← hvalue]
  simp only [b] at hem'
  rw [hem']

/-- The verdict in a row that binds none of the variables still to be given. -/
theorem verdict_eq (hcontext : ¬ a.Pending context)
    (hem : enclosed (test .builtin limits t context) a = .ok em) {r : Row} (hr : r.Avoids a) :
    t.verdict D limits (r.value? context) = truth? (Expr.value? D em.value r) :=
  (truth?_enclosed hcontext hem fun v hv => hr v hv.1).symm

theorem exists_enclosed_ok (ht : t.fault? limits = none) (context : Variable) (a : Allocator) :
    ∃ em, enclosed (test .builtin limits t context) a = .ok em := by
  obtain ⟨em, hem, -⟩ := (faultIs_enclosed (faultIs_test limits t context)).succeeds a ht
  exact ⟨em, hem⟩

theorem avoids_single {v : Variable} (hv : ¬ a.Pending v) (value : Option Node) :
    (Row.single v value).Avoids a := by
  intro w hw
  have hne : w ≠ v := fun heq => hv (heq ▸ hw)
  rw [Row.value?_single, if_neg hne]

theorem Element.steps_filterOf (D : List Quad) (e : Expr) (r : Row) :
    Element.steps D (filterOf e) r = [r] := by
  unfold filterOf
  split <;> simp [Element.steps, Element.step]

private theorem Group.found_filterOf (D : List Quad) (g : Group) (e : Expr) (r : Row) :
    Group.found D (g ++ filterOf e) r =
      (Group.found D g r).filter fun x => truth? (Expr.value? D e x) = some true := by
  cases halways : e.isAlways with
  | false =>
    rw [filterOf, halways]
    exact Group.found_filter D g e r
  | true =>
    rw [filterOf, halways, isAlways_eq_true halways]
    simp [truth?_always]

/-- A condition that is required has a match exactly if it is true in a scope of its own. -/
theorem exists_found_required_iff {m : Emit Expr} {inner em : Emission Expr}
    (hinner : m a = .ok inner) (hem : enclosed m a = .ok em) (r : Row) :
    (∃ x, x ∈ Group.found D (inner.elements ++ filterOf inner.value) r) ↔
      truth? (Expr.value? D em.value r) = some true := by
  obtain ⟨inner', hinner', -, -, hvalue⟩ := enclosed_ok hem
  obtain rfl := Except.ok.inj (hinner.symm.trans hinner')
  rcases hvalue with ⟨hnil, hvalue⟩ | ⟨-, hvalue⟩
  · rw [hnil, hvalue, Group.found_filterOf]
    simp [Group.found, Element.steps, Element.holdAll]
  · rw [hvalue, Expr.value?, truth?_ofTruth]
    simp [Group.found, List.eq_nil_iff_forall_not_mem]

theorem verdict_isSome_of_written {inner : Emission Expr} (hcontext : ¬ a.Pending context)
    (hinner : test .builtin limits t context a = .ok inner) (hwritten : inner.elements ≠ [])
    (value : Option Node) : (t.verdict D limits value).isSome := by
  have ht := ((faultIs_test limits t context).ok_iff a).1 ⟨inner, hinner⟩
  obtain ⟨em, hem⟩ := exists_enclosed_ok ht context a
  obtain ⟨inner', hinner', -, -, ⟨hnil, -⟩ | ⟨-, hvalue⟩⟩ := enclosed_ok hem
  · obtain rfl := Except.ok.inj (hinner.symm.trans hinner')
    exact absurd hnil hwritten
  · have hverdict := verdict_eq (D := D) hcontext hem (avoids_single hcontext value)
    rw [Row.value?_single, if_pos rfl] at hverdict
    rw [hverdict, hvalue, Expr.value?, truth?_ofTruth]
    rfl

/-- What writes nothing has the truth value of its condition, in every row that does not bind the
variables of its scopes. -/
theorem truth?_of_silent {inner : Emission Expr} (hcontext : ¬ a.Pending context)
    (hinner : test .builtin limits t context a = .ok inner) (hsilent : inner.elements = [])
    {y : Row} (hy : ∀ v, a.Spent inner.allocator v → y.value? v = none) :
    truth? (Expr.value? D inner.value y) = t.verdict D limits (y.value? context) := by
  have ht := ((faultIs_test limits t context).ok_iff a).1 ⟨inner, hinner⟩
  obtain ⟨em, hem⟩ := exists_enclosed_ok ht context a
  obtain ⟨inner', hinner', -, hallocator, hvalue⟩ := enclosed_ok hem
  obtain rfl := Except.ok.inj (hinner.symm.trans hinner')
  rcases hvalue with ⟨-, hvalue⟩ | ⟨hne, -⟩
  · rw [← truth?_enclosed hcontext hem (hallocator ▸ hy), hvalue]
  · exact absurd hsilent hne

theorem verdict_of_silent {inner : Emission Expr} (hcontext : ¬ a.Pending context)
    (hinner : test .builtin limits t context a = .ok inner) (hsilent : inner.elements = [])
    {r : Row} (hr : r.Avoids a) :
    t.verdict D limits (r.value? context) = truth? (Expr.value? D inner.value r) :=
  (truth?_of_silent hcontext hinner hsilent fun v hv => hr v hv.1).symm

theorem verdict_of_fault {e : CompileError} (h : t.fault? limits = some e) (value : Option Node) :
    t.verdict D limits value = none := by
  let a := Allocator.ofSettings {}
  have herror := (faultIs_enclosed (faultIs_test limits t a.root)).fails a e h
  simp only [a] at herror
  rw [Test.verdict, herror]

theorem fault?_eq_none_of_verdict {value : Option Node} {b : Bool}
    (h : t.verdict D limits value = some b) : t.fault? limits = none := by
  cases ht : t.fault? limits with
  | none => rfl
  | some e =>
    rw [verdict_of_fault ht] at h
    cases h

end

section

variable {D : List Quad} {limits : RecursionLimits}

/-! ## Tests that always have a verdict -/

theorem verdict_isSome_of_isA {type : Selector} (ht : (Test.isA type).fault? limits = none)
    (value : Option Node) : ((Test.isA type).verdict D limits value).isSome := by
  let a := Allocator.ofSettings {}
  have hroot : ¬ a.Pending a.root := a.root_not_pending
  obtain ⟨inner, hinner, -⟩ := (faultIs_test limits (.isA type) a.root).succeeds a ht
  exact verdict_isSome_of_written hroot hinner (written_of_isA hinner) value

theorem verdict_isSome_of_pathExists {path : Selector}
    (ht : (Test.pathExists path).fault? limits = none) (value : Option Node) :
    ((Test.pathExists path).verdict D limits value).isSome := by
  let a := Allocator.ofSettings {}
  have hroot : ¬ a.Pending a.root := a.root_not_pending
  obtain ⟨inner, hinner, -⟩ := (faultIs_test limits (.pathExists path) a.root).succeeds a ht
  by_cases hsilent : inner.elements = []
  · have hverdict := verdict_of_silent (D := D) hroot hinner hsilent (avoids_single hroot value)
    rw [test, governed_testRule] at hinner
    obtain ⟨first, last, -, hlast, rfl⟩ := bind_ok hinner
    cases hlast
    rw [Row.value?_single, if_pos rfl, truth?_always] at hverdict
    rw [hverdict]
    rfl
  · exact verdict_isSome_of_written hroot hinner hsilent value

/-! ## Compound tests -/

theorem bothTrue_eq_true_iff (x y : Option Bool) :
    bothTrue x y = some true ↔ x = some true ∧ y = some true := by
  rcases x with _ | _ | _ <;> rcases y with _ | _ | _ <;> simp [bothTrue]

theorem someTrue_eq_true_iff (x y : Option Bool) :
    someTrue x y = some true ↔ x = some true ∨ y = some true := by
  rcases x with _ | _ | _ <;> rcases y with _ | _ | _ <;> simp [someTrue]

/-- The condition of two tests, each in a scope of its own. -/
def Compile.joined (limits : RecursionLimits) (join : Expr → Expr → Expr) (left right : Test)
    (context : Variable) : Emit Expr := do
  let l ← enclosed (test .builtin limits left context)
  let l' ← enclosed (test .builtin limits right context)
  return join l l'

theorem joined_silent {join : Expr → Expr → Expr} {left right : Test} {context : Variable}
    {a : Allocator} {inner : Emission Expr}
    (h : joined limits join left right context a = .ok inner) : inner.elements = [] := by
  obtain ⟨l, rest, hl, hrest, rfl⟩ := bind_ok h
  obtain ⟨l', last, hl', hlast, rfl⟩ := bind_ok hrest
  cases hlast
  obtain ⟨-, -, hnil, -⟩ := enclosed_ok hl
  obtain ⟨-, -, hnil', -⟩ := enclosed_ok hl'
  simp [hnil, hnil']

theorem verdict_joined {t left right : Test} {join : Expr → Expr → Expr}
    {op : Option Bool → Option Bool → Option Bool}
    (htest : ∀ context, test .builtin limits t context = joined limits join left right context)
    (hjoin : ∀ l l' r, truth? (Expr.value? D (join l l') r) =
      op (truth? (Expr.value? D l r)) (truth? (Expr.value? D l' r)))
    (ht : t.fault? limits = none) (value : Option Node) :
    t.verdict D limits value = op (left.verdict D limits value) (right.verdict D limits value) := by
  let a := Allocator.ofSettings {}
  have hroot : ¬ a.Pending a.root := a.root_not_pending
  obtain ⟨inner, hinner, -⟩ := (faultIs_test limits t a.root).succeeds a ht
  have hinner' := hinner
  rw [htest] at hinner'
  have hsilent := joined_silent hinner'
  obtain ⟨l, rest, hl, hrest, rfl⟩ := bind_ok hinner'
  obtain ⟨l', last, hl', hlast, rfl⟩ := bind_ok hrest
  cases hlast
  have hlater := (stays_enclosed (stays_test limits left a.root) a l hl).1.later
  have hr := avoids_single hroot value
  have hverdict := verdict_of_silent (D := D) hroot hinner hsilent hr
  have hleft := verdict_eq (D := D) hroot hl hr
  have hright := verdict_eq (D := D) (fun h => hroot (hlater _ h)) hl' (hr.later hlater)
  rw [Row.value?_single, if_pos rfl] at hverdict hleft hright
  rw [hverdict, hleft, hright]
  exact hjoin _ _ _

theorem verdict_and {left right : Test} (ht : (Test.and left right).fault? limits = none)
    (value : Option Node) : (Test.and left right).verdict D limits value =
      bothTrue (left.verdict D limits value) (right.verdict D limits value) :=
  verdict_joined (fun context => by rw [test, governed_testRule]; rfl) truth?_both ht value

theorem verdict_or {left right : Test} (ht : (Test.or left right).fault? limits = none)
    (value : Option Node) : (Test.or left right).verdict D limits value =
      someTrue (left.verdict D limits value) (right.verdict D limits value) :=
  verdict_joined (fun context => by rw [test, governed_testRule]; rfl) truth?_oneOf ht value

theorem not_silent {t : Test} {context : Variable} {a : Allocator} {inner : Emission Expr}
    (h : test .builtin limits (.not t) context a = .ok inner) : inner.elements = [] := by
  rw [test, governed_testRule] at h
  obtain ⟨e, last, he, hlast, rfl⟩ := bind_ok h
  cases hlast
  obtain ⟨-, -, hnil, -⟩ := enclosed_ok he
  simp [hnil]

theorem verdict_not {t : Test} (ht : t.fault? limits = none) (value : Option Node) :
    (Test.not t).verdict D limits value = (t.verdict D limits value).map not := by
  let a := Allocator.ofSettings {}
  have hroot : ¬ a.Pending a.root := a.root_not_pending
  obtain ⟨inner, hinner, -⟩ := (faultIs_test limits (.not t) a.root).succeeds a ht
  have hr := avoids_single hroot value
  have hverdict := verdict_of_silent (D := D) hroot hinner (not_silent hinner) hr
  rw [test, governed_testRule] at hinner
  obtain ⟨e, last, he, hlast, rfl⟩ := bind_ok hinner
  cases hlast
  have hpart := verdict_eq (D := D) hroot he hr
  rw [Row.value?_single, if_pos rfl] at hverdict hpart
  rw [hverdict, hpart, Expr.value?, truth?_ofTruth]

end

end GraphPath
