import GraphPath.Proofs.Allocation
import GraphPath.Proofs.Rules

/-!
# The counter of a compilation

Compiling takes its variables from the allocator one after the other, whatever the rules of the
extensions are, as long as they do so themselves. So the allocator that it leaves tells whether the
counter, a machine word, has overflowed on the way.
-/

namespace GraphPath

namespace Allocator

/-- The second allocator is the first after some searches. -/
def Advances (a b : Allocator) : Prop := ∃ k, b = (a.freshes k).2

variable {a b c : Allocator}

private theorem Advances.refl (a : Allocator) : a.Advances a := ⟨0, rfl⟩

private theorem freshes_add (a : Allocator) (j k : Nat) :
    ((a.freshes j).2.freshes k).2 = (a.freshes (j + k)).2 := by
  induction j generalizing a with
  | zero =>
    rw [Nat.zero_add]
    rfl
  | succ j ih => rw [freshes_succ_snd, ih, Nat.succ_add, freshes_succ_snd]

private theorem Advances.trans (hab : a.Advances b) (hbc : b.Advances c) : a.Advances c := by
  obtain ⟨j, rfl⟩ := hab
  obtain ⟨k, rfl⟩ := hbc
  exact ⟨j + k, freshes_add a j k⟩

private theorem advances_fresh (a : Allocator) : a.Advances a.fresh.2 := ⟨1, rfl⟩

/-- Searches without an overflow lead to the allocators whose counters are machine words. -/
theorem exists_searches_iff (ha : a.next < UInt64.size) :
    (∃ vars, Searches a vars b) ↔ a.Advances b ∧ b.next < UInt64.size := by
  constructor
  · rintro ⟨vars, h⟩
    induction h with
    | nil a => exact ⟨.refl a, ha⟩
    | @cons a a' _ v _ head _ ih =>
      obtain ⟨hfresh, hroom⟩ := search_iff.1 head
      obtain ⟨hrest, hlast⟩ := ih hroom
      have hfirst : a.Advances a' := ⟨1, (congrArg Prod.snd hfresh).symm⟩
      exact ⟨hfirst.trans hrest, hlast⟩
  · rintro ⟨⟨k, rfl⟩, hroom⟩
    exact ⟨_, searches_freshes a k hroom⟩

end Allocator

namespace Emit

variable {α β : Type}

/-- The step takes its variables from the allocator. -/
def Advances (m : Emit α) : Prop := ∀ a em, m a = .ok em → a.Advances em.allocator

private theorem Advances.bind {m : Emit α} {f : α → Emit β} (hm : m.Advances)
    (hf : ∀ x, (f x).Advances) :
    (m >>= f).Advances := by
  intro a em hem
  obtain ⟨first, second, hfirst, hsecond, rfl⟩ := bind_ok hem
  exact (hm a first hfirst).trans (hf _ _ second hsecond)

private theorem advances_done (x : α) : (done x).Advances := by
  intro a em hem
  cases hem
  exact .refl a

private theorem advances_write (e : Element) : (write e).Advances := by
  intro a em hem
  cases hem
  exact .refl a

private theorem advances_fresh : fresh.Advances := by
  intro a em hem
  obtain rfl := fresh_ok hem
  exact a.advances_fresh

private theorem advances_ofExcept (x : Except CompileError α) : (ofExcept x).Advances := by
  cases x with
  | ok y => exact advances_done y
  | error e =>
    intro a em hem
    cases hem

private theorem Advances.captured {m : Emit α} (h : m.Advances) : m.captured.Advances := by
  intro a em hem
  obtain ⟨inner, hinner, rfl⟩ := captured_ok hem
  exact h a inner hinner

private theorem advances_inOrder {ms : List (Emit α)} (h : ∀ m ∈ ms, m.Advances) :
    (inOrder ms).Advances := by
  induction ms with
  | nil => exact advances_done []
  | cons m rest ih =>
    exact (h m List.mem_cons_self).bind fun _ =>
      (ih fun m' hm' => h m' (List.mem_cons_of_mem m hm')).bind fun _ => advances_done _

private theorem advances_iterate {f : Variable → Emit Variable} (h : ∀ v, (f v).Advances) (n : Nat)
    (v : Variable) : (iterate f n v).Advances := by
  induction n generalizing v with
  | zero => exact advances_done v
  | succ n ih => exact (h v).bind ih

end Emit

/-- The rules of the extensions take their variables from the allocator. -/
structure Registry.Advances (r : Registry) : Prop where
  selector : ∀ kind name rule, r.selectors kind = some (.extension name rule) →
    ∀ s context, (rule s context).Advances
  test : ∀ kind name rule, r.tests kind = some (.extension name rule) →
    ∀ t context, (rule t context).Advances

theorem Registry.advances_builtin : Registry.builtin.Advances := by
  constructor <;> intro kind name rule h <;> cases h

namespace Compile

open Emit

private theorem advances_closeBranch (context output : Variable) (branch : Variable × Group) :
    (closeBranch context output branch).Advances := by
  intro a em hem
  rw [closeBranch_apply] at hem
  cases hem
  change a.Advances (closing context output branch.1 a).2
  unfold closing
  split
  · exact ((a.advances_fresh.trans a.fresh.2.advances_fresh).trans
      a.fresh.2.fresh.2.advances_fresh).trans a.fresh.2.fresh.2.fresh.2.advances_fresh
  · exact .refl a

private theorem advances_alternatives (context : Variable) {branches : List (Emit Variable)}
    (h : ∀ m ∈ branches, m.Advances) : (alternatives context branches).Advances := by
  refine (advances_inOrder ?_).bind fun compiled => advances_fresh.bind fun output =>
    (advances_inOrder ?_).bind fun groups => (advances_write _).bind fun _ => advances_done output
  · intro m hm
    obtain ⟨m', hm', rfl⟩ := List.mem_map.1 hm
    exact (h m' hm').captured
  · intro m hm
    obtain ⟨branch, -, rfl⟩ := List.mem_map.1 hm
    exact advances_closeBranch context output branch

private theorem advances_unrolled {step : Variable → Emit Variable} (h : ∀ v, (step v).Advances)
    (min bound : Nat) (context : Variable) : (unrolled step min bound context).Advances := by
  unfold unrolled
  split
  · exact advances_iterate h min context
  · apply advances_alternatives
    intro m hm
    obtain ⟨i, -, rfl⟩ := List.mem_map.1 hm
    exact advances_iterate h (min + i) context

private theorem advances_bindFresh (e : Expr) : (bindFresh e).Advances :=
  advances_fresh.bind fun output => (advances_write _).bind fun _ => advances_done output

private theorem advances_enclosed {m : Emit Expr} (h : m.Advances) : (enclosed m).Advances := by
  intro a em hem
  obtain ⟨inner, hinner, -, hallocator, -⟩ := enclosed_ok hem
  rw [hallocator]
  exact h a inner hinner

private theorem advances_asOperand (s : Selector) {m : Emit Variable} (h : m.Advances) :
    (asOperand s m).Advances := by
  unfold asOperand
  split
  · exact advances_done _
  · exact h.bind fun v => advances_done _

private theorem advances_joined {m m' : Emit Expr} (h : m.Advances) (h' : m'.Advances)
    (join : Expr → Expr → Expr) :
    Advances (do
      let l ← enclosed m
      let l' ← enclosed m'
      return join l l') :=
  (advances_enclosed h).bind fun _ => (advances_enclosed h').bind fun _ => advances_done _

private theorem advances_compared (left right : Selector) {m m' : Emit Variable} (h : m.Advances)
    (h' : m'.Advances) (join : Expr → Expr → Expr) :
    Advances (do
      let l ← asOperand left m
      let l' ← asOperand right m'
      return join l l') :=
  (advances_asOperand left h).bind fun _ => (advances_asOperand right h').bind fun _ =>
    advances_done _

private theorem advances_require (e : Expr) : (require e).Advances := by
  unfold require
  split
  · exact advances_done ()
  · exact advances_write _

private theorem advances_requireSame (l l' : Variable) : (requireSame l l').Advances := by
  unfold requireSame
  split
  · exact advances_done ()
  · exact advances_write _

variable {r : Registry}

private theorem advances_selectorRule (hr : r.Advances) {s : Selector} {context : Variable}
    {m : Emit Variable} (hm : m.Advances) :
    (governed (r.selectorRule s.kind) (fun rule => rule s context) m).Advances := by
  unfold Registry.selectorRule
  cases hrule : r.selectors s.kind with
  | none => exact advances_ofExcept (.error _)
  | some rule =>
    cases rule with
    | builtin => exact hm
    | extension name f => exact hr.selector _ name f hrule s context

private theorem advances_testRule (hr : r.Advances) {t : Test} {context : Variable} {m : Emit Expr}
    (hm : m.Advances) :
    (governed (r.testRule t.kind) (fun rule => rule t context) m).Advances := by
  unfold Registry.testRule
  cases hrule : r.tests t.kind with
  | none => exact advances_ofExcept (.error _)
  | some rule =>
    cases rule with
    | builtin => exact hm
    | extension name f => exact hr.test _ name f hrule t context

mutual

/-- A selector takes its variables from the allocator. -/
theorem advances_selector (hr : r.Advances) (limits : RecursionLimits) (s : Selector)
    (context : Variable) : (selector r limits s context).Advances := by
  cases s with
  | property p =>
    rw [selector]
    apply advances_selectorRule hr
    exact advances_fresh.bind fun v => (advances_write _).bind fun _ => advances_done v
  | reverse p =>
    rw [selector]
    apply advances_selectorRule hr
    exact advances_fresh.bind fun v => (advances_write _).bind fun _ => advances_done v
  | path left right =>
    rw [selector]
    apply advances_selectorRule hr
    exact (advances_selector hr limits left context).bind fun middle =>
      advances_selector hr limits right middle
  | union left right =>
    rw [selector]
    apply advances_selectorRule hr
    apply advances_alternatives
    intro m hm
    rcases List.mem_pair.1 hm with rfl | rfl
    · exact advances_selector hr limits left context
    · exact advances_selector hr limits right context
  | intersection left right =>
    rw [selector]
    apply advances_selectorRule hr
    exact (advances_selector hr limits left context).bind fun l =>
      (advances_selector hr limits right context).bind fun l' =>
        (advances_requireSame l l').bind fun _ => advances_done l
  | recursive inner min max =>
    rw [selector]
    apply advances_selectorRule hr
    exact (advances_ofExcept _).bind fun bound =>
      advances_unrolled (fun v => advances_selector hr limits inner v) min bound context
  | grouping inner =>
    rw [selector]
    apply advances_selectorRule hr
    exact advances_selector hr limits inner context
  | testing delegate t =>
    rw [selector]
    apply advances_selectorRule hr
    exact (advances_selector hr limits delegate context).bind fun value =>
      (advances_test hr limits t value).bind fun e =>
        (advances_require e).bind fun _ => advances_done context
  | function name args =>
    rw [selector]
    apply advances_selectorRule hr
    exact (advances_ofExcept _).bind fun f => (advances_operands hr limits args context).bind
      fun values => (advances_ofExcept _).bind advances_bindFresh
  | self =>
    rw [selector]
    apply advances_selectorRule hr
    exact advances_done context
  | wildcard =>
    rw [selector]
    apply advances_selectorRule hr
    exact advances_fresh.bind fun _ => advances_fresh.bind fun v =>
      (advances_write _).bind fun _ => advances_done v
  | constant n =>
    rw [selector]
    apply advances_selectorRule hr
    exact advances_bindFresh _

private theorem advances_operands (hr : r.Advances) (limits : RecursionLimits)
    (args : List Selector) (context : Variable) : (operands r limits args context).Advances := by
  cases args with
  | nil => exact advances_done []
  | cons s rest =>
    rw [operands]
    exact (advances_asOperand s (advances_selector hr limits s context)).bind fun e =>
      (advances_operands hr limits rest context).bind fun more => advances_done _

private theorem advances_test (hr : r.Advances) (limits : RecursionLimits) (t : Test)
    (context : Variable) : (test r limits t context).Advances := by
  cases t with
  | isA type =>
    by_cases htype : ∃ i, type = .constant (.iri i)
    · obtain ⟨i, rfl⟩ := htype
      rw [test]
      exact advances_testRule hr ((advances_write _).bind fun _ => advances_done _)
    · rw [test]
      · exact advances_testRule hr (advances_fresh.bind fun found => (advances_write _).bind
          fun _ => (advances_asOperand type (advances_selector hr limits type context)).bind
            fun expected => advances_done _)
      · exact fun i hi => htype ⟨i, hi⟩
  | and left right =>
    rw [test]
    exact advances_testRule hr (advances_joined (advances_test hr limits left context)
      (advances_test hr limits right context) .both)
  | or left right =>
    rw [test]
    exact advances_testRule hr (advances_joined (advances_test hr limits left context)
      (advances_test hr limits right context) .oneOf)
  | not inner =>
    rw [test]
    exact advances_testRule hr
      ((advances_enclosed (advances_test hr limits inner context)).bind fun e => advances_done _)
  | comparison op left right =>
    rw [test]
    exact advances_testRule hr (advances_compared left right
      (advances_selector hr limits left context) (advances_selector hr limits right context)
      (.compare op))
  | pathEquality left right =>
    rw [test]
    exact advances_testRule hr (advances_compared left right
      (advances_selector hr limits left context) (advances_selector hr limits right context)
      .equals)
  | pathExists path =>
    rw [test]
    exact advances_testRule hr
      ((advances_selector hr limits path context).bind fun _ => advances_done _)
  | language tag =>
    rw [test]
    exact advances_testRule hr (advances_done _)
  | datatype type =>
    rw [test]
    exact advances_testRule hr (advances_done _)

end

end Compile

end GraphPath
