import GraphPath.Proofs.Faults
import GraphPath.Proofs.RoundTrip
import GraphPath.Proofs.Stillness

/-!
# Parentheses that count

Parentheses make no difference to whether a selector compiles, nor to whether it writes anything.
They make one where a constant is an operand: a constant stands for itself, and in parentheses it is
bound to a variable, so that a condition asks for a match where it would have been evaluated as it
is. This can be told apart only below a negation, by a comparison that would write nothing without
the parentheses. The plain form of a selector has these parentheses and no others.
-/

namespace GraphPath

/-- An operand of which the plain form is given. To keep parentheses is to leave one pair of them
around a constant. -/
def Selector.unwrapped (keep : Bool) (s plain : Selector) : Selector :=
  match keep, s, plain with
  | true, .grouping _, .constant n => .grouping (.constant n)
  | _, _, plain => plain

mutual

/-- The selector without the parentheses that make no difference. -/
def Selector.plain (limits : RecursionLimits) : Selector → Selector
  | .property p => .property p
  | .reverse p => .reverse p
  | .path left right => .path (left.plain limits) (right.plain limits)
  | .union left right => .union (left.plain limits) (right.plain limits)
  | .intersection left right => .intersection (left.plain limits) (right.plain limits)
  | .recursive inner min max => .recursive (inner.plain limits) min max
  | .grouping inner => inner.plain limits
  | .testing delegate t => .testing (delegate.plain limits) (t.plain limits false)
  | .function name args => .function name (Selector.plainAll limits args)
  | .self => .self
  | .wildcard => .wildcard
  | .constant n => .constant n

def Selector.plainAll (limits : RecursionLimits) : List Selector → List Selector
  | [] => []
  | s :: rest => s.plain limits :: Selector.plainAll limits rest

/-- The test without the parentheses that make no difference. Where the verdict has to be exact, it
counts whether a comparison is evaluated as it is; elsewhere only whether it is true. -/
def Test.plain (limits : RecursionLimits) (exact : Bool) : Test → Test
  | .isA type => .isA (type.plain limits)
  | .and left right => .and (left.plain limits exact) (right.plain limits exact)
  | .or left right => .or (left.plain limits exact) (right.plain limits exact)
  | .not t => .not (t.plain limits true)
  | .comparison op left right =>
    let keep := exact && (left.plain limits).bare limits && (right.plain limits).bare limits
    .comparison op (left.unwrapped keep (left.plain limits))
      (right.unwrapped keep (right.plain limits))
  | .pathEquality left right =>
    let keep := exact && (left.plain limits).bare limits && (right.plain limits).bare limits
    .pathEquality (left.unwrapped keep (left.plain limits))
      (right.unwrapped keep (right.plain limits))
  | .pathExists path => .pathExists (path.plain limits)
  | .language tag => .language tag
  | .datatype type => .datatype type

end

/-! ## What does not see parentheses -/

mutual

theorem Selector.fault?_ungrouped (limits : RecursionLimits) (s : Selector) :
    s.ungrouped.fault? limits = s.fault? limits := by
  cases s <;> simp only [Selector.ungrouped, Selector.fault?]
  case path l r => rw [l.fault?_ungrouped, r.fault?_ungrouped]
  case union l r => rw [l.fault?_ungrouped, r.fault?_ungrouped]
  case intersection l r => rw [l.fault?_ungrouped, r.fault?_ungrouped]
  case recursive inner min max => rw [inner.fault?_ungrouped]
  case grouping inner => rw [inner.fault?_ungrouped]
  case testing delegate t => rw [delegate.fault?_ungrouped, t.fault?_ungrouped]
  case function name args =>
    obtain ⟨hfault, hlength⟩ := Selector.firstFault?_ungroupedAll limits args
    rw [hfault, hlength]

private theorem Selector.firstFault?_ungroupedAll (limits : RecursionLimits)
    (args : List Selector) :
    Selector.firstFault? limits (Selector.ungroupedAll args) = Selector.firstFault? limits args ∧
      (Selector.ungroupedAll args).length = args.length := by
  cases args with
  | nil => exact ⟨rfl, rfl⟩
  | cons s rest =>
    obtain ⟨hfault, hlength⟩ := Selector.firstFault?_ungroupedAll limits rest
    simp only [Selector.ungroupedAll, Selector.firstFault?, List.length_cons]
    rw [s.fault?_ungrouped, hfault, hlength]
    exact ⟨rfl, rfl⟩

private theorem Test.fault?_ungrouped (limits : RecursionLimits) (t : Test) :
    t.ungrouped.fault? limits = t.fault? limits := by
  cases t <;> simp only [Test.ungrouped, Test.fault?]
  case isA type => rw [type.fault?_ungrouped]
  case and l r => rw [l.fault?_ungrouped, r.fault?_ungrouped]
  case or l r => rw [l.fault?_ungrouped, r.fault?_ungrouped]
  case not inner => rw [inner.fault?_ungrouped]
  case comparison op l r => rw [l.fault?_ungrouped, r.fault?_ungrouped]
  case pathEquality l r => rw [l.fault?_ungrouped, r.fault?_ungrouped]
  case pathExists path => rw [path.fault?_ungrouped]

end

mutual

private theorem Selector.still_ungrouped (limits : RecursionLimits) (s : Selector) :
    s.ungrouped.still limits = s.still limits := by
  cases s <;> simp only [Selector.ungrouped, Selector.still]
  case path l r => rw [l.still_ungrouped, r.still_ungrouped]
  case intersection l r => rw [l.still_ungrouped, r.still_ungrouped]
  case recursive inner min max => rw [inner.still_ungrouped]
  case grouping inner => rw [inner.still_ungrouped]
  case testing delegate t => rw [delegate.still_ungrouped, t.vacuous_ungrouped]

private theorem Test.vacuous_ungrouped (limits : RecursionLimits) (t : Test) :
    t.ungrouped.vacuous limits = t.vacuous limits := by
  cases t <;> simp only [Test.ungrouped, Test.vacuous]
  case and l r => rw [l.vacuous_ungrouped, r.vacuous_ungrouped]
  case or l r => rw [l.vacuous_ungrouped, r.vacuous_ungrouped]
  case pathExists path => rw [path.still_ungrouped]

end

private theorem Selector.ungrouped_unwrapped {s plain : Selector}
    (h : plain.ungrouped = s.ungrouped) (keep : Bool) :
    (s.unwrapped keep plain).ungrouped = s.ungrouped := by
  unfold unwrapped
  split <;> exact h

mutual

private theorem Selector.ungrouped_plain (limits : RecursionLimits) (s : Selector) :
    (s.plain limits).ungrouped = s.ungrouped := by
  cases s <;> simp only [Selector.plain, Selector.ungrouped]
  case path l r => rw [l.ungrouped_plain, r.ungrouped_plain]
  case union l r => rw [l.ungrouped_plain, r.ungrouped_plain]
  case intersection l r => rw [l.ungrouped_plain, r.ungrouped_plain]
  case recursive inner min max => rw [inner.ungrouped_plain]
  case grouping inner => rw [inner.ungrouped_plain]
  case testing delegate t => rw [delegate.ungrouped_plain, t.ungrouped_plain]
  case function name args => rw [Selector.ungroupedAll_plainAll]

private theorem Selector.ungroupedAll_plainAll (limits : RecursionLimits) (args : List Selector) :
    Selector.ungroupedAll (Selector.plainAll limits args) = Selector.ungroupedAll args := by
  cases args with
  | nil => rfl
  | cons s rest =>
    simp only [Selector.plainAll, Selector.ungroupedAll]
    rw [s.ungrouped_plain, Selector.ungroupedAll_plainAll limits rest]

private theorem Test.ungrouped_plain (limits : RecursionLimits) (exact : Bool) (t : Test) :
    (t.plain limits exact).ungrouped = t.ungrouped := by
  cases t <;> simp only [Test.plain, Test.ungrouped]
  case isA type => rw [type.ungrouped_plain]
  case and l r => rw [l.ungrouped_plain, r.ungrouped_plain]
  case or l r => rw [l.ungrouped_plain, r.ungrouped_plain]
  case not inner => rw [inner.ungrouped_plain]
  case comparison op l r =>
    rw [Selector.ungrouped_unwrapped (l.ungrouped_plain limits),
      Selector.ungrouped_unwrapped (r.ungrouped_plain limits)]
  case pathEquality l r =>
    rw [Selector.ungrouped_unwrapped (l.ungrouped_plain limits),
      Selector.ungrouped_unwrapped (r.ungrouped_plain limits)]
  case pathExists path => rw [path.ungrouped_plain]

end

namespace Selector

variable (limits : RecursionLimits) (s : Selector)

theorem fault?_plain : (s.plain limits).fault? limits = s.fault? limits := by
  rw [← fault?_ungrouped, ungrouped_plain, fault?_ungrouped]

private theorem still_plain : (s.plain limits).still limits = s.still limits := by
  rw [← still_ungrouped, ungrouped_plain, still_ungrouped]

end Selector

theorem Test.fault?_plain (limits : RecursionLimits) (exact : Bool) (t : Test) :
    (t.plain limits exact).fault? limits = t.fault? limits := by
  rw [← Test.fault?_ungrouped, Test.ungrouped_plain, Test.fault?_ungrouped]

/-! ## Operands -/

namespace Selector

variable {limits : RecursionLimits} {s : Selector}

theorem plain_constant_cases {n : Node} (h : s.plain limits = .constant n) :
    s = .constant n ∨ ∃ inner, s = .grouping inner := by
  cases s with
  | grouping inner => exact .inr ⟨inner, rfl⟩
  | constant m => exact .inl h
  | _ => cases h

theorem unwrapped_eq {keep : Bool} (h : ∀ n, s.plain limits ≠ .constant n) :
    s.unwrapped keep (s.plain limits) = s.plain limits := by
  unfold unwrapped
  split
  · next n hplain => exact absurd hplain (h n)
  · rfl

private theorem unwrapped_false (s plain : Selector) : s.unwrapped false plain = plain := rfl

private theorem bare_plain_of_bare (h : s.bare limits = true) :
    (s.plain limits).bare limits = true := by
  by_cases hconstant : ∃ n, s.plain limits = .constant n
  · obtain ⟨n, hn⟩ := hconstant
    rw [hn]
    rfl
  · have hplain : ∀ n, s.plain limits ≠ .constant n := fun n hn => hconstant ⟨n, hn⟩
    have hs : ∀ n, s ≠ .constant n := fun n hn => hplain n (by rw [hn, plain])
    rwa [bare_eq hplain, still_plain, ← bare_eq hs]

private theorem bare_unwrapped (s : Selector) :
    (s.unwrapped true (s.plain limits)).bare limits = s.bare limits := by
  by_cases hconstant : ∃ n, s.plain limits = .constant n
  · obtain ⟨n, hn⟩ := hconstant
    rcases plain_constant_cases hn with rfl | ⟨inner, rfl⟩
    · rfl
    · have hstill := still_plain limits (.grouping inner)
      rw [hn] at hstill
      rw [hn, unwrapped, bare_eq (grouping_ne_constant inner), ← hstill]
      rfl
  · have hplain : ∀ n, s.plain limits ≠ .constant n := fun n hn => hconstant ⟨n, hn⟩
    have hs : ∀ n, s ≠ .constant n := fun n hn => hplain n (by rw [hn, plain])
    rw [unwrapped_eq hplain, bare_eq hplain, still_plain, bare_eq hs]

theorem bare_unwrapped_both (left right : Selector) :
    let keep := (left.plain limits).bare limits && (right.plain limits).bare limits
    ((left.unwrapped keep (left.plain limits)).bare limits &&
      (right.unwrapped keep (right.plain limits)).bare limits) =
        (left.bare limits && right.bare limits) := by
  intro keep
  cases hkeep : keep with
  | true => rw [bare_unwrapped, bare_unwrapped]
  | false =>
    rw [unwrapped_false, unwrapped_false]
    refine hkeep.trans (Bool.eq_false_iff.2 fun hboth => ?_).symm
    rw [Bool.and_eq_true] at hboth
    have htrue : keep = true := by
      rw [Bool.and_eq_true]
      exact ⟨bare_plain_of_bare hboth.1, bare_plain_of_bare hboth.2⟩
    rw [hkeep] at htrue
    cases htrue

end Selector

end GraphPath
