import GraphPath.Proofs.Rules
import GraphPath.Proofs.Unbounded

/-!
# Selectors that write nothing

A selector that only gives back its context compiles to nothing at all, and a test that holds of
everything neither writes a pattern nor leaves a condition. A condition on operands that write
nothing is evaluated as it is; any other condition is asked of the matches of a pattern.
-/

namespace GraphPath

mutual

/-- Whether the selector gives back its context without asking for anything. -/
def Selector.still (limits : RecursionLimits) : Selector → Bool
  | .property _ => false
  | .reverse _ => false
  | .path left right => left.still limits && right.still limits
  | .union _ _ => false
  | .intersection left right => left.still limits && right.still limits
  | .recursive inner min max =>
    (min = max.getD (Nat.max limits.maxDepth min) && 0 < min) && inner.still limits
  | .grouping inner => inner.still limits
  | .testing delegate t => delegate.still limits && t.vacuous limits
  | .function _ _ => false
  | .self => true
  | .wildcard => false
  | .constant _ => false

/-- Whether the test holds of everything, by its form alone. -/
def Test.vacuous (limits : RecursionLimits) : Test → Bool
  | .isA _ => false
  | .and left right => left.vacuous limits && right.vacuous limits
  | .or left right => left.vacuous limits || right.vacuous limits
  | .not _ => false
  | .comparison _ _ _ => false
  | .pathEquality _ _ => false
  | .pathExists path => path.still limits
  | .language _ => false
  | .datatype _ => false

end

/-- Whether the selector writes nothing as an operand. -/
def Selector.bare (limits : RecursionLimits) : Selector → Bool
  | .constant _ => true
  | s => s.still limits

/-- The value of an operand that writes nothing, from a context with the given value. -/
def Selector.given? (limits : RecursionLimits) (context : Node) (s : Selector) : Option Node :=
  match s with
  | .constant n => some n
  | s => if s.still limits then some context else none

section

variable {s : Selector} (h : ∀ n, s ≠ .constant n)

include h

theorem Selector.bare_eq (limits : RecursionLimits) : s.bare limits = s.still limits := by
  cases s with
  | constant n => exact absurd rfl (h n)
  | _ => rfl

private theorem Selector.given?_eq (limits : RecursionLimits) (context : Node) :
    s.given? limits context = if s.still limits then some context else none := by
  cases s with
  | constant n => exact absurd rfl (h n)
  | _ => rfl

theorem Compile.asOperand_eq (m : Emit Variable) : Compile.asOperand s m = (do
    let v ← m
    return Expr.var v) := by
  cases s with
  | constant n => exact absurd rfl (h n)
  | _ => rfl

end

theorem Selector.grouping_ne_constant (inner : Selector) (n : Node) :
    Selector.grouping inner ≠ .constant n := by simp

theorem Selector.isSome_given? (limits : RecursionLimits) (context : Node) (s : Selector) :
    (s.given? limits context).isSome = s.bare limits := by
  by_cases h : ∃ n, s = .constant n
  · obtain ⟨n, rfl⟩ := h
    rfl
  · have hs : ∀ n, s ≠ .constant n := fun n hn => h ⟨n, hn⟩
    rw [Selector.given?_eq hs, Selector.bare_eq hs]
    cases s.still limits <;> rfl

namespace Compile

open Emit

/-- The step writes nothing exactly if a condition holds, and then gives back where it started. -/
def StillIf (still : Bool) (context : Variable) (em : Emission Variable) : Prop :=
  (em.elements = [] ↔ still = true) ∧ (still = true → em.value = context)

private theorem stillIf_iterate {step : Variable → Emit Variable} {still : Bool}
    (h : ∀ v a em, step v a = .ok em → StillIf still v em) (n : Nat) {v : Variable}
    {a : Allocator} {em : Emission Variable} (hem : iterate step (n + 1) v a = .ok em) :
    StillIf still v em := by
  induction n generalizing v a em with
  | zero =>
    obtain ⟨first, last, hfirst, hlast, rfl⟩ := bind_ok hem
    cases hlast
    simpa only [StillIf, List.append_nil] using h v a first hfirst
  | succ n ih =>
    obtain ⟨first, rest, hfirst, hrest, rfl⟩ := bind_ok hem
    obtain ⟨hwritten, hvalue⟩ := h v a first hfirst
    obtain ⟨hwritten', hvalue'⟩ := ih hrest
    refine ⟨?_, fun hstill => (hvalue' hstill).trans (hvalue hstill)⟩
    rw [List.append_eq_nil_iff, hwritten, hwritten', and_self]

private theorem isAlways_both (l r : Expr) :
    (Expr.both l r).isAlways = (l.isAlways && r.isAlways) := by
  cases l <;> cases r <;> rfl

private theorem isAlways_oneOf (l r : Expr) :
    (Expr.oneOf l r).isAlways = (l.isAlways || r.isAlways) := by
  cases l <;> cases r <;> rfl

private theorem isAlways_enclosed {m : Emit Expr} {a : Allocator} {em : Emission Expr}
    (h : enclosed m a = .ok em) : ∃ inner, m a = .ok inner ∧
      (em.value.isAlways = true ↔ inner.elements = [] ∧ inner.value.isAlways = true) := by
  obtain ⟨inner, hinner, -, -, ⟨hnil, hvalue⟩ | ⟨hne, hvalue⟩⟩ := enclosed_ok h
  · exact ⟨inner, hinner, by rw [hvalue, hnil, eq_self_iff_true, true_and]⟩
  · refine ⟨inner, hinner, ?_⟩
    rw [hvalue]
    exact iff_of_false (by simp [Expr.isAlways]) fun hboth => hne hboth.1

private theorem filterOf_eq_nil_iff (e : Expr) : filterOf e = [] ↔ e.isAlways = true := by
  unfold filterOf
  split <;> simp_all

theorem written_of_isA {limits : RecursionLimits} {type : Selector} {context : Variable}
    {a : Allocator} {em : Emission Expr}
    (hem : test .builtin limits (.isA type) context a = .ok em) : em.elements ≠ [] := by
  by_cases htype : ∃ i, type = .constant (.iri i)
  · obtain ⟨i, rfl⟩ := htype
    rw [test, governed_testRule] at hem
    cases hem
    exact List.cons_ne_nil _ _
  · rw [test, governed_testRule] at hem
    · obtain ⟨found, rest, -, hrest, rfl⟩ := bind_ok hem
      obtain ⟨written, rest', hwritten, -, rfl⟩ := bind_ok hrest
      cases hwritten
      simp
    · exact fun i hi => htype ⟨i, hi⟩

mutual

private theorem stillIf_selector {limits : RecursionLimits} (s : Selector) {context : Variable}
    {a : Allocator} {em : Emission Variable}
    (hem : selector .builtin limits s context a = .ok em) :
    StillIf (s.still limits) context em := by
  cases s with
  | property p =>
    rw [selector, governed_selectorRule, alongProperty_apply] at hem
    cases hem
    simp [StillIf, Selector.still]
  | reverse p =>
    rw [selector, governed_selectorRule, againstProperty_apply] at hem
    cases hem
    simp [StillIf, Selector.still]
  | path left right =>
    rw [selector, governed_selectorRule] at hem
    obtain ⟨first, second, hfirst, hsecond, rfl⟩ := bind_ok hem
    obtain ⟨hwritten, hvalue⟩ := stillIf_selector left hfirst
    obtain ⟨hwritten', hvalue'⟩ := stillIf_selector right hsecond
    rw [StillIf, List.append_eq_nil_iff, Selector.still, Bool.and_eq_true, hwritten, hwritten']
    exact ⟨Iff.rfl, fun h => (hvalue' h.2).trans (hvalue h.1)⟩
  | union left right =>
    rw [selector, governed_selectorRule] at hem
    obtain ⟨ems, a', -, rfl⟩ := alternatives_ok hem
    simp [StillIf, Selector.still]
  | intersection left right =>
    rw [selector, governed_selectorRule] at hem
    obtain ⟨first, rest, hfirst, hrest, rfl⟩ := bind_ok hem
    obtain ⟨second, rest', hsecond, hrest', rfl⟩ := bind_ok hrest
    obtain ⟨same, last, hsame, hlast, rfl⟩ := bind_ok hrest'
    cases hlast
    rw [requireSame_apply] at hsame
    cases hsame
    obtain ⟨hwritten, hvalue⟩ := stillIf_selector left hfirst
    obtain ⟨hwritten', hvalue'⟩ := stillIf_selector right hsecond
    refine ⟨?_, fun h => hvalue (Bool.and_eq_true _ _ ▸ h : _ ∧ _).1⟩
    rw [Selector.still, Bool.and_eq_true, List.append_nil, List.append_eq_nil_iff,
      List.append_eq_nil_iff, hwritten, hwritten']
    refine ⟨fun h => ⟨h.1, h.2.1⟩, fun h => ⟨h.1, h.2, if_pos ?_⟩⟩
    rw [hvalue h.1, hvalue' h.2]
  | recursive inner min max =>
    rw [selector, governed_selectorRule] at hem
    obtain ⟨bound, hbound, hem⟩ := ofExcept_bind_ok hem
    rw [Selector.still, ← (unrollingBound_ok hbound).2]
    unfold unrolled at hem
    split at hem
    · next hsingle =>
      obtain ⟨n, rfl⟩ : ∃ n, min = n + 1 := ⟨min - 1, by omega⟩
      have hstill := stillIf_iterate (fun v a em h => stillIf_selector inner h) n hem
      have honce : (decide (n + 1 = bound) && decide (0 < n + 1)) = true := by simpa using hsingle
      rwa [honce, Bool.true_and]
    · next hseveral =>
      obtain ⟨ems, a', -, rfl⟩ := alternatives_ok hem
      have hnot : (decide (min = bound) && decide (0 < min)) = false := by simpa using hseveral
      simp [StillIf, hnot]
  | grouping inner =>
    rw [selector, governed_selectorRule] at hem
    exact stillIf_selector inner hem
  | testing delegate t =>
    obtain ⟨first, inner, hfirst, hinner, rfl⟩ := testing_ok hem
    have hdelegate := (stillIf_selector delegate hfirst).1
    have htest := vacuous_iff t hinner
    refine ⟨?_, fun _ => rfl⟩
    rw [Selector.still, Bool.and_eq_true, ← hdelegate, ← htest, List.append_eq_nil_iff,
      List.append_eq_nil_iff, filterOf_eq_nil_iff]
  | function name args =>
    rw [selector, governed_selectorRule] at hem
    obtain ⟨f, -, hem⟩ := ofExcept_bind_ok hem
    obtain ⟨values, rest, -, hrest, rfl⟩ := bind_ok hem
    obtain ⟨e, -, hbind⟩ := ofExcept_bind_ok hrest
    rw [bindFresh_apply] at hbind
    cases hbind
    simp [StillIf, Selector.still]
  | self =>
    rw [selector, governed_selectorRule] at hem
    cases hem
    simp [StillIf, Selector.still]
  | wildcard =>
    rw [selector, governed_selectorRule, alongAny_apply] at hem
    cases hem
    simp [StillIf, Selector.still]
  | constant n =>
    rw [selector, governed_selectorRule, bindFresh_apply] at hem
    cases hem
    simp [StillIf, Selector.still]

theorem vacuous_iff {limits : RecursionLimits} (t : Test) {context : Variable} {a : Allocator}
    {em : Emission Expr} (hem : test .builtin limits t context a = .ok em) :
    em.elements = [] ∧ em.value.isAlways = true ↔ t.vacuous limits = true := by
  cases t with
  | isA type =>
    exact iff_of_false (fun h => written_of_isA hem h.1) (by simp [Test.vacuous])
  | and left right =>
    rw [test, governed_testRule] at hem
    obtain ⟨l, rest, hl, hrest, rfl⟩ := bind_ok hem
    obtain ⟨l', last, hl', hlast, rfl⟩ := bind_ok hrest
    cases hlast
    obtain ⟨-, -, hnil, -⟩ := enclosed_ok hl
    obtain ⟨-, -, hnil', -⟩ := enclosed_ok hl'
    obtain ⟨inner, hinner, halways⟩ := isAlways_enclosed hl
    obtain ⟨inner', hinner', halways'⟩ := isAlways_enclosed hl'
    simp only [hnil, hnil', List.append_nil, true_and, isAlways_both, Bool.and_eq_true, halways,
      halways', vacuous_iff left hinner, vacuous_iff right hinner', Test.vacuous]
  | or left right =>
    rw [test, governed_testRule] at hem
    obtain ⟨l, rest, hl, hrest, rfl⟩ := bind_ok hem
    obtain ⟨l', last, hl', hlast, rfl⟩ := bind_ok hrest
    cases hlast
    obtain ⟨-, -, hnil, -⟩ := enclosed_ok hl
    obtain ⟨-, -, hnil', -⟩ := enclosed_ok hl'
    obtain ⟨inner, hinner, halways⟩ := isAlways_enclosed hl
    obtain ⟨inner', hinner', halways'⟩ := isAlways_enclosed hl'
    simp only [hnil, hnil', List.append_nil, true_and, isAlways_oneOf, Bool.or_eq_true, halways,
      halways', vacuous_iff left hinner, vacuous_iff right hinner', Test.vacuous]
  | not inner =>
    rw [test, governed_testRule] at hem
    obtain ⟨e, last, -, hlast, rfl⟩ := bind_ok hem
    cases hlast
    simp [Test.vacuous, Expr.isAlways]
  | comparison op left right =>
    rw [test, governed_testRule] at hem
    obtain ⟨l, rest, -, hrest, rfl⟩ := bind_ok hem
    obtain ⟨l', last, -, hlast, rfl⟩ := bind_ok hrest
    cases hlast
    simp [Test.vacuous, Expr.isAlways]
  | pathEquality left right =>
    rw [test, governed_testRule] at hem
    obtain ⟨l, rest, -, hrest, rfl⟩ := bind_ok hem
    obtain ⟨l', last, -, hlast, rfl⟩ := bind_ok hrest
    cases hlast
    simp [Test.vacuous, Expr.isAlways, Expr.equals]
  | pathExists path =>
    rw [test, governed_testRule] at hem
    obtain ⟨first, last, hfirst, hlast, rfl⟩ := bind_ok hem
    cases hlast
    rw [Test.vacuous, ← (stillIf_selector path hfirst).1]
    simp [Expr.isAlways]
  | language tag =>
    rw [test, governed_testRule] at hem
    cases hem
    simp [Test.vacuous, Expr.isAlways, languageCondition]
  | datatype type =>
    rw [test, governed_testRule] at hem
    cases hem
    simp [Test.vacuous, Expr.isAlways, datatypeCondition, Expr.equals]

end

/-- An operand writes nothing exactly if it is bare, and then it has the value that is given. -/
theorem given_of_asOperand {limits : RecursionLimits} {s : Selector} {context : Variable}
    {a : Allocator} {em : Emission Expr}
    (hem : asOperand s (selector .builtin limits s context) a = .ok em) :
    (em.elements = [] ↔ s.bare limits = true) ∧
      ∀ (D : List Quad) (r : Row) (c n : Node), r.value? context = some c →
        s.given? limits c = some n → Expr.value? D em.value r = some n := by
  by_cases hconstant : ∃ n, s = .constant n
  · obtain ⟨n, rfl⟩ := hconstant
    cases hem
    exact ⟨iff_of_true rfl rfl, fun D r c m _ hm => hm⟩
  · have hs : ∀ n, s ≠ .constant n := fun n hn => hconstant ⟨n, hn⟩
    rw [asOperand_eq hs] at hem
    obtain ⟨first, last, hfirst, hlast, rfl⟩ := bind_ok hem
    cases hlast
    obtain ⟨hwritten, hvalue⟩ := stillIf_selector s hfirst
    refine ⟨by rw [List.append_nil, hwritten, Selector.bare_eq hs], fun D r c n hc hn => ?_⟩
    rw [Selector.given?_eq hs] at hn
    split at hn
    · next hstill =>
      rw [Expr.var, Expr.value?, Term.value?, hvalue hstill, hc, hn]
    · cases hn

/-- The comparison of two operands. -/
def compared (limits : RecursionLimits) (op : Comparison) (left right : Selector)
    (context : Variable) : Emit Expr := do
  let l ← asOperand left (selector .builtin limits left context)
  let l' ← asOperand right (selector .builtin limits right context)
  return .compare op l l'

/-- A comparison writes nothing exactly if both its operands write nothing. -/
theorem compared_silent_iff {limits : RecursionLimits} {op : Comparison} {left right : Selector}
    {context : Variable} {a : Allocator} {inner : Emission Expr}
    (h : compared limits op left right context a = .ok inner) :
    inner.elements = [] ↔ (left.bare limits && right.bare limits) = true := by
  obtain ⟨l, rest, hl, hrest, rfl⟩ := bind_ok h
  obtain ⟨l', last, hl', hlast, rfl⟩ := bind_ok hrest
  cases hlast
  rw [List.append_nil, List.append_eq_nil_iff, (given_of_asOperand hl).1,
    (given_of_asOperand hl').1, Bool.and_eq_true]

end Compile

end GraphPath
