import GraphPath.Proofs.Rules
import Mathlib.Data.List.Forall2

/-!
# What fails to compile

Whether a selector or a test compiles, and with which error it fails if not, is told by its tree:
by the bounds of its repetitions and by the functions that it calls. Neither the context nor the
variables that were taken before make a difference, and parentheses make none either.
-/

namespace GraphPath

/-- From every allocator the step fails with the fault, or, if there is none, succeeds with a value
that has the property. -/
structure Emit.FaultIs {α : Type} (m : Emit α) (fault : Option CompileError) (P : α → Prop) :
    Prop where
  fails : ∀ a e, fault = some e → m a = .error e
  succeeds : ∀ a, fault = none → ∃ em, m a = .ok em ∧ P em.value

/-- The first of some faults. -/
def firstFault (faults : List (Option CompileError)) : Option CompileError :=
  faults.foldr Option.or none

private theorem firstFault_eq {faults : List (Option CompileError)} {fault : Option CompileError}
    (h : ∀ x ∈ faults, x = none ∨ x = fault) (hmem : fault ∈ faults) :
    firstFault faults = fault := by
  induction faults with
  | nil => cases hmem
  | cons x rest ih =>
    have hrest : ∀ y ∈ rest, y = none ∨ y = fault := fun y hy => h y (.tail x hy)
    change x.or (firstFault rest) = fault
    by_cases hfault : fault ∈ rest
    · rw [ih hrest hfault]
      rcases h x (.head rest) with rfl | rfl
      · rfl
      · exact Option.or_self
    · obtain rfl : fault = x := (List.mem_cons.1 hmem).resolve_right hfault
      have hnone : ∀ faults : List (Option CompileError), (∀ y ∈ faults, y = none) →
          firstFault faults = none := by
        intro faults hnone
        induction faults with
        | nil => rfl
        | cons y ys ih =>
          obtain rfl := hnone y (.head ys)
          exact ih fun z hz => hnone z (.tail _ hz)
      rw [hnone rest fun y hy => (hrest y hy).resolve_right fun heq => hfault (heq ▸ hy),
        Option.or_none]

namespace Emit

variable {α β : Type} {P : α → Prop} {Q : β → Prop} {x y : Option CompileError}

theorem FaultIs.error_iff {m : Emit α} (h : m.FaultIs x P) (a : Allocator) (e : CompileError) :
    m a = .error e ↔ x = some e := by
  constructor
  · intro herror
    cases x with
    | none =>
      obtain ⟨em, hem, -⟩ := h.succeeds a rfl
      cases hem.symm.trans herror
    | some e' => rw [Except.error.inj ((h.fails a e' rfl).symm.trans herror)]
  · exact h.fails a e

theorem FaultIs.ok_iff {m : Emit α} (h : m.FaultIs x P) (a : Allocator) :
    (∃ em, m a = .ok em) ↔ x = none := by
  constructor
  · rintro ⟨em, hem⟩
    cases x with
    | none => rfl
    | some e => cases hem.symm.trans (h.fails a e rfl)
  · intro hx
    obtain ⟨em, hem, -⟩ := h.succeeds a hx
    exact ⟨em, hem⟩

theorem faultIs_of_ok {m : Emit α} (h : ∀ a, ∃ em, m a = .ok em ∧ P em.value) :
    m.FaultIs none P :=
  ⟨nofun, fun a _ => h a⟩

theorem faultIs_done {v : α} (h : P v) : (done v).FaultIs none P :=
  faultIs_of_ok fun a => ⟨⟨v, [], a⟩, rfl, h⟩

theorem FaultIs.bind {m : Emit α} {f : α → Emit β} (hm : m.FaultIs x P)
    (hf : ∀ v, P v → (f v).FaultIs y Q) : (m >>= f).FaultIs (x.or y) Q := by
  constructor
  · intro a e he
    cases x with
    | some e' =>
      cases he
      simp only [bind_apply, andThen, hm.fails a e rfl]
    | none =>
      obtain ⟨em, hem, hvalue⟩ := hm.succeeds a rfl
      simp only [bind_apply, andThen, hem, (hf em.value hvalue).fails em.allocator e he]
  · intro a hnone
    obtain ⟨hx, hy⟩ := Option.or_eq_none_iff.1 hnone
    obtain ⟨first, hfirst, hvalue⟩ := hm.succeeds a hx
    obtain ⟨second, hsecond, hresult⟩ := (hf _ hvalue).succeeds first.allocator hy
    exact ⟨_, bind_eq_ok hfirst hsecond, hresult⟩

theorem FaultIs.bind_ok {m : Emit α} {f : α → Emit β} (hm : m.FaultIs x P)
    (hf : ∀ v, P v → (f v).FaultIs none Q) : (m >>= f).FaultIs x Q := by
  have h := hm.bind hf
  rwa [Option.or_none] at h

private theorem faultIs_fresh : fresh.FaultIs none fun _ => True :=
  faultIs_of_ok fun _ => ⟨_, rfl, trivial⟩

theorem faultIs_write (e : Element) : (write e).FaultIs none fun _ => True :=
  faultIs_of_ok fun _ => ⟨_, rfl, trivial⟩

private theorem faultIs_ofExcept_error {e : CompileError} (f : α → Emit β) :
    (ofExcept (.error e) >>= f).FaultIs (some e) Q :=
  ⟨fun _ _ he => congrArg Except.error (Option.some.inj he), nofun⟩

private theorem faultIs_ofExcept_ok {v : α} {f : α → Emit β} (h : (f v).FaultIs y Q) :
    (ofExcept (.ok v) >>= f).FaultIs y Q := by
  rwa [show ofExcept (.ok v) >>= f = f v from done_andThen v f]

theorem FaultIs.captured {m : Emit α} (h : m.FaultIs x P) :
    m.captured.FaultIs x fun captured => P captured.1 := by
  constructor
  · intro a e he
    simp only [Emit.captured, h.fails a e he]
  · intro a hnone
    obtain ⟨em, hem, hvalue⟩ := h.succeeds a hnone
    exact ⟨⟨(em.value, em.elements), [], em.allocator⟩, by simp only [Emit.captured, hem], hvalue⟩

theorem faultIs_inOrder {ms : List (Emit α)} {faults : List (Option CompileError)}
    (h : List.Forall₂ (fun m fault => m.FaultIs fault P) ms faults) :
    (inOrder ms).FaultIs (firstFault faults) fun _ => True := by
  induction h with
  | nil => exact faultIs_done trivial
  | cons hm _ ih => exact hm.bind fun v _ => ih.bind_ok fun vs _ => faultIs_done trivial

private theorem faultIs_iterate {f : Variable → Emit Variable}
    (h : ∀ v, (f v).FaultIs x fun _ => True) (n : Nat) (v : Variable) :
    (iterate f n v).FaultIs (if n = 0 then none else x) fun _ => True := by
  induction n generalizing v with
  | zero => exact faultIs_done trivial
  | succ n ih =>
    have hstep := (h v).bind fun next _ => ih next
    rw [if_neg n.succ_ne_zero]
    by_cases hn : n = 0
    · rwa [if_pos hn, Option.or_none] at hstep
    · rwa [if_neg hn, Option.or_self] at hstep

end Emit

mutual

/-- The error with which the selector fails to compile, if it does. -/
def Selector.fault? (limits : RecursionLimits) : Selector → Option CompileError
  | .property _ => none
  | .reverse _ => none
  | .path left right => (left.fault? limits).or (right.fault? limits)
  | .union left right => (left.fault? limits).or (right.fault? limits)
  | .intersection left right => (left.fault? limits).or (right.fault? limits)
  | .recursive inner min max =>
    match Compile.unrollingBound limits min max with
    | .error e => some e
    | .ok bound => if bound = 0 then none else inner.fault? limits
  | .grouping inner => inner.fault? limits
  | .testing delegate t => (delegate.fault? limits).or (t.fault? limits)
  | .function name args =>
    match PathFunction.named? name with
    | none => some (.unsupported (.function name))
    | some f => (Selector.firstFault? limits args).or
        (if f.arity.accepts args.length then none
        else some (.arity name f.arity args.length))
  | .self => none
  | .wildcard => none
  | .constant _ => none

/-- The first fault of some selectors. -/
def Selector.firstFault? (limits : RecursionLimits) : List Selector → Option CompileError
  | [] => none
  | s :: rest => (s.fault? limits).or (Selector.firstFault? limits rest)

/-- The error with which the test fails to compile, if it does. -/
def Test.fault? (limits : RecursionLimits) : Test → Option CompileError
  | .isA type => type.fault? limits
  | .and left right => (left.fault? limits).or (right.fault? limits)
  | .or left right => (left.fault? limits).or (right.fault? limits)
  | .not inner => inner.fault? limits
  | .comparison _ left right => (left.fault? limits).or (right.fault? limits)
  | .pathEquality left right => (left.fault? limits).or (right.fault? limits)
  | .pathExists path => path.fault? limits
  | .language _ => none
  | .datatype _ => none

end

namespace Compile

open Emit

variable {x y : Option CompileError}

private theorem faultIs_alternatives (context : Variable) {branches : List (Emit Variable)}
    {faults : List (Option CompileError)}
    (h : List.Forall₂ (fun m fault => m.FaultIs fault fun _ => True) branches faults) :
    (alternatives context branches).FaultIs (firstFault faults) fun _ => True := by
  have hcaptured : List.Forall₂ (fun m fault => m.FaultIs fault fun _ => True)
      (branches.map captured) faults :=
    List.forall₂_map_left_iff.2 (h.imp fun _ _ hm => hm.captured)
  have hclosed (output : Variable) (compiled : List (Variable × Group)) :
      (inOrder (compiled.map (closeBranch context output))).FaultIs none fun _ => True := by
    refine faultIs_of_ok fun a => ?_
    have happly := inOrder_closeBranch context output
      (compiled.map fun branch => ⟨branch.1, branch.2, a⟩) a
    rw [List.map_map] at happly
    exact ⟨_, happly, trivial⟩
  exact (faultIs_inOrder hcaptured).bind_ok fun compiled _ => faultIs_fresh.bind fun output _ =>
    (hclosed output compiled).bind fun groups _ => (faultIs_write (.union groups)).bind fun _ _ =>
      faultIs_done trivial

theorem faultIs_unrolled {step : Variable → Emit Variable}
    (h : ∀ v, (step v).FaultIs x fun _ => True) {min bound : Nat} (hle : min ≤ bound)
    (context : Variable) :
    (unrolled step min bound context).FaultIs (if bound = 0 then none else x) fun _ => True := by
  unfold unrolled
  split
  · next heq =>
    obtain ⟨rfl, -⟩ := heq
    exact faultIs_iterate h min context
  · have hdepths : List.Forall₂ (fun m fault => m.FaultIs fault fun _ => True)
        ((List.range (bound - min + 1)).map fun i => iterate step (min + i) context)
        ((List.range (bound - min + 1)).map fun i => if min + i = 0 then none else x) :=
      List.forall₂_map_left_iff.2 (List.forall₂_map_right_iff.2
        (List.forall₂_same.2 fun i _ => faultIs_iterate h (min + i) context))
    have hfirst : firstFault ((List.range (bound - min + 1)).map
        fun i => if min + i = 0 then none else x) = if bound = 0 then none else x := by
      apply firstFault_eq
      · simp only [List.forall_mem_map, List.mem_range]
        intro i hi
        by_cases hzero : min + i = 0
        · exact .inl (if_pos hzero)
        · exact .inr (by rw [if_neg hzero, if_neg (by omega)])
      · refine List.mem_map.2 ⟨bound - min, by simp, ?_⟩
        rw [Nat.add_sub_cancel' hle]
    rw [← hfirst]
    exact faultIs_alternatives context hdepths

private theorem faultIs_require (e : Expr) : (require e).FaultIs none fun _ => True :=
  faultIs_of_ok fun a => ⟨_, require_apply e a, trivial⟩

private theorem faultIs_requireSame (l r : Variable) :
    (requireSame l r).FaultIs none fun _ => True :=
  faultIs_of_ok fun a => ⟨_, requireSame_apply l r a, trivial⟩

private theorem faultIs_bindFresh (e : Expr) : (bindFresh e).FaultIs none fun _ => True :=
  faultIs_of_ok fun a => ⟨_, bindFresh_apply e a, trivial⟩

theorem faultIs_enclosed {m : Emit Expr} (h : m.FaultIs x fun _ => True) :
    (enclosed m).FaultIs x fun _ => True := by
  refine h.captured.bind_ok ?_
  rintro ⟨e, scope⟩ -
  by_cases hscope : scope.isEmpty = true
  · simp only [if_pos hscope]
    exact faultIs_done trivial
  · simp only [if_neg hscope]
    exact faultIs_done trivial

private theorem faultIs_asOperand (s : Selector) {m : Emit Variable} {limits : RecursionLimits}
    (h : m.FaultIs (s.fault? limits) fun _ => True) :
    (asOperand s m).FaultIs (s.fault? limits) fun _ => True := by
  unfold asOperand
  split
  · exact faultIs_done trivial
  · exact h.bind_ok fun v _ => faultIs_done trivial

private theorem faultIs_joined {m m' : Emit Expr} (join : Expr → Expr → Expr)
    (h : m.FaultIs x fun _ => True) (h' : m'.FaultIs y fun _ => True) :
    (do
      let l ← m
      let l' ← m'
      return join l l').FaultIs (x.or y) fun _ => True :=
  h.bind fun _ _ => h'.bind_ok fun _ _ => faultIs_done trivial

mutual

/-- A selector fails with its fault, or compiles, from every context and with every allocator. -/
theorem faultIs_selector (limits : RecursionLimits) (s : Selector) (context : Variable) :
    (selector .builtin limits s context).FaultIs (s.fault? limits) fun _ => True := by
  cases s with
  | property p => exact faultIs_of_ok fun a => ⟨_, alongProperty_apply p context a, trivial⟩
  | reverse p => exact faultIs_of_ok fun a => ⟨_, againstProperty_apply p context a, trivial⟩
  | path left right =>
    rw [selector, governed_selectorRule]
    exact (faultIs_selector limits left context).bind fun middle _ =>
      faultIs_selector limits right middle
  | union left right =>
    rw [selector, governed_selectorRule]
    have h := faultIs_alternatives context (.cons (faultIs_selector limits left context)
      (.cons (faultIs_selector limits right context) .nil))
    rwa [firstFault, List.foldr_cons, List.foldr_cons, List.foldr_nil, Option.or_none] at h
  | intersection left right =>
    rw [selector, governed_selectorRule]
    exact (faultIs_selector limits left context).bind fun l _ =>
      (faultIs_selector limits right context).bind_ok fun l' _ =>
        (faultIs_requireSame l l').bind fun _ _ => faultIs_done trivial
  | recursive inner min max =>
    rw [selector, governed_selectorRule, Selector.fault?]
    cases hbound : unrollingBound limits min max with
    | error e => exact faultIs_ofExcept_error _
    | ok bound => exact faultIs_ofExcept_ok (faultIs_unrolled
        (fun v => faultIs_selector limits inner v) (unrollingBound_ok hbound).1 context)
  | grouping inner =>
    rw [selector, governed_selectorRule]
    exact faultIs_selector limits inner context
  | testing delegate t =>
    rw [selector, governed_selectorRule]
    exact (faultIs_selector limits delegate context).bind fun value _ =>
      (faultIs_test limits t value).bind_ok fun e _ =>
        (faultIs_require e).bind fun _ _ => faultIs_done trivial
  | function name args =>
    rw [selector, governed_selectorRule, Selector.fault?, Registry.builtin_function]
    cases PathFunction.named? name with
    | none => exact faultIs_ofExcept_error _
    | some f =>
      refine faultIs_ofExcept_ok ((faultIs_operands limits args context).bind fun es hes => ?_)
      unfold PathFunction.apply
      rw [hes]
      split
      · exact faultIs_ofExcept_ok (faultIs_bindFresh _)
      · exact faultIs_ofExcept_error _
  | self => exact faultIs_done trivial
  | wildcard => exact faultIs_of_ok fun a => ⟨_, alongAny_apply context a, trivial⟩
  | constant n => exact faultIs_bindFresh _

private theorem faultIs_operands (limits : RecursionLimits) (args : List Selector)
    (context : Variable) :
    (operands .builtin limits args context).FaultIs (Selector.firstFault? limits args)
      fun es => es.length = args.length := by
  cases args with
  | nil => exact faultIs_done rfl
  | cons s rest =>
    rw [operands]
    exact (faultIs_asOperand s (faultIs_selector limits s context)).bind fun e _ =>
      (faultIs_operands limits rest context).bind_ok fun es hes =>
        faultIs_done (congrArg Nat.succ hes)

/-- A test fails with its fault, or compiles, from every context and with every allocator. -/
theorem faultIs_test (limits : RecursionLimits) (t : Test) (context : Variable) :
    (test .builtin limits t context).FaultIs (t.fault? limits) fun _ => True := by
  cases t with
  | isA type =>
    have hgeneral : (do
        let found ← fresh
        writeTriple (.var context) (.iri Iri.rdfType) (.var found)
        let expected ← asOperand type (selector .builtin limits type context)
        return Expr.equals (.var found) expected).FaultIs (type.fault? limits) fun _ => True :=
      faultIs_fresh.bind fun found _ => (faultIs_write _).bind fun _ _ =>
        (faultIs_asOperand type (faultIs_selector limits type context)).bind_ok fun e _ =>
          faultIs_done trivial
    cases type with
    | constant n =>
      cases n with
      | iri i => exact (faultIs_write _).bind fun _ _ => faultIs_done trivial
      | literal l => exact hgeneral
    | _ => exact hgeneral
  | and left right =>
    rw [test, governed_testRule]
    exact faultIs_joined .both (faultIs_enclosed (faultIs_test limits left context))
      (faultIs_enclosed (faultIs_test limits right context))
  | or left right =>
    rw [test, governed_testRule]
    exact faultIs_joined .oneOf (faultIs_enclosed (faultIs_test limits left context))
      (faultIs_enclosed (faultIs_test limits right context))
  | not inner =>
    rw [test, governed_testRule]
    exact (faultIs_enclosed (faultIs_test limits inner context)).bind_ok fun e _ =>
      faultIs_done trivial
  | comparison op left right =>
    rw [test, governed_testRule]
    exact faultIs_joined (.compare op)
      (faultIs_asOperand left (faultIs_selector limits left context))
      (faultIs_asOperand right (faultIs_selector limits right context))
  | pathEquality left right =>
    rw [test, governed_testRule]
    exact faultIs_joined .equals (faultIs_asOperand left (faultIs_selector limits left context))
      (faultIs_asOperand right (faultIs_selector limits right context))
  | pathExists path =>
    rw [test, governed_testRule]
    exact (faultIs_selector limits path context).bind_ok fun _ _ => faultIs_done trivial
  | language tag => exact faultIs_done trivial
  | datatype type => exact faultIs_done trivial

end

end Compile

end GraphPath
