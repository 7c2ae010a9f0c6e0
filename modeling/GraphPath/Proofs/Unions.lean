import Mathlib.Order.SetNotation
import Mathlib.Order.Interval.Set.Basic
import GraphPath.Proofs.Equivariance

/-!
# Unions and repetitions

In the whole language of selectors a union has the values of its two sides, and a repetition those
of all its depths. Each side is matched without knowing the context, so it must not read the context
before it has found it; and a side that gives back the context gives it only if it is stored.
-/

namespace GraphPath

/-- The selector followed the given number of times; the context itself for none. -/
def Selector.power (s : Selector) : Nat → Selector
  | 0 => .self
  | k + 1 => .path s (s.power k)

/-- A selector compiled from a context and evaluated from a seed that binds none of the variables
that were still to be given. -/
structure Selector.Run (D : List Quad) (limits : RecursionLimits) (s : Selector)
    (context : Variable) (seed : Row) where
  allocator : Allocator
  emission : Emission Variable
  cap : Nat
  rows : List Row
  avoids : seed.Avoids allocator
  compiled : Compile.selector .builtin limits s context allocator = .ok emission
  evaluated : Group.rows ⟨D, cap⟩ emission.elements [seed] = .ok rows

namespace Selector.Run

variable {D : List Quad} {limits : RecursionLimits} {s : Selector} {context : Variable} {seed : Row}

/-- The nodes to which the rows bind the output. -/
def values (run : Run D limits s context seed) : Set Node :=
  {n | ∃ row ∈ run.rows, row.value? run.emission.value = some n}

/-- The values that count where the selector is an alternative: a context that it gives back has to
be stored. -/
def offered (run : Run D limits s context seed) : Set Node :=
  {n ∈ run.values | run.emission.value = context → n.StoredIn D}

/-- Whether the selector can be matched without knowing the context. -/
def Grounded (run : Run D limits s context seed) : Prop := run.emission.Grounded D context

theorem rows_eq (run : Run D limits s context seed) :
    run.rows = Group.found D run.emission.elements seed :=
  Group.rows_eq_found run.evaluated

theorem values_eq (run : Run D limits s context seed) :
    run.values = run.emission.values D seed := by
  unfold values Emission.values
  rw [run.rows_eq]

private theorem offered_eq (run : Run D limits s context seed) :
    run.offered = run.emission.offered D context seed := by
  unfold offered Emission.offered
  rw [run.values_eq]

theorem exists_of_compiled (D : List Quad) {a : Allocator} {em : Emission Variable}
    (hseed : seed.Avoids a) (hem : Compile.selector .builtin limits s context a = .ok em) :
    ∃ run : Run D limits s context seed, run.emission = em := by
  obtain ⟨cap, hcap⟩ := (Group.rows_settles D em.elements [seed]).exists_ok
  exact ⟨⟨a, em, cap, _, hseed, hem, hcap⟩, rfl⟩

/-- All runs of a selector from a seed have the same values. -/
theorem values_unique {c : Node} (hc : seed.value? context = some c)
    (run run' : Run D limits s context seed) : run'.values = run.values := by
  rw [run.values_eq, run'.values_eq]
  exact (Compile.offered_selector hc run.avoids run'.avoids run.compiled run'.compiled).1

private theorem offered_unique {c : Node} (hc : seed.value? context = some c)
    (run run' : Run D limits s context seed) : run'.offered = run.offered := by
  rw [run.offered_eq, run'.offered_eq]
  exact (Compile.offered_selector hc run.avoids run'.avoids run.compiled run'.compiled).2.1

private theorem exists_grounded (D : List Quad) (limits : RecursionLimits) (s : Selector)
    (context : Variable) {a : Allocator} (hseed : seed.Avoids a)
    (h : (Compile.selector .builtin limits s context a).toOption.any
      (fun em => em.elements.all fun e => !e.reads context) = true) :
    ∃ run : Run D limits s context seed, run.Grounded := by
  obtain ⟨em, hem, hreads⟩ := exists_ok_of_any h
  obtain ⟨run, rfl⟩ := exists_of_compiled D hseed hem
  exact ⟨run, Emission.grounded_of_not_reads (by simpa using hreads)⟩

/-- The outputs of a run, computed. -/
def outputs? (D : List Quad) (limits : RecursionLimits) (s : Selector) (context : Variable)
    (seed : Row) (a : Allocator) (cap : Nat) : Option (List (Option Node)) := do
  let em ← (Compile.selector .builtin limits s context a).toOption
  let rows ← (Group.rows ⟨D, cap⟩ em.elements [seed]).toOption
  return rows.map (·.value? em.value)

theorem exists_of_outputs {cap : Nat} {outputs : List (Option Node)} {a : Allocator}
    (hseed : seed.Avoids a) (h : outputs? D limits s context seed a cap = some outputs) :
    ∃ run : Run D limits s context seed, run.values = {n | some n ∈ outputs} := by
  unfold outputs? at h
  cases hem : Compile.selector .builtin limits s context a with
  | error e => simp [hem, Except.toOption] at h
  | ok em =>
    cases hrows : Group.rows ⟨D, cap⟩ em.elements [seed] with
    | error e => simp [hem, hrows, Except.toOption] at h
    | ok rows =>
      refine ⟨⟨a, em, cap, rows, hseed, hem, hrows⟩, ?_⟩
      simp only [hem, hrows, Except.toOption, Option.bind_eq_bind, Option.bind_some,
        Option.pure_def, Option.some_inj] at h
      ext n
      simp [values, ← h]

end Selector.Run

namespace Compile

open Emit Selector

variable {D : List Quad} {limits : RecursionLimits} {context : Variable} {seed : Row} {c : Node}
  {a : Allocator} {em : Emission Variable}

private theorem selector_power (inner : Selector) (k : Nat) (context : Variable) :
    selector .builtin limits (inner.power k) context =
      iterate (fun v => selector .builtin limits inner v) k context := by
  induction k generalizing context with
  | zero =>
    rw [Selector.power, selector, governed_selectorRule]
    rfl
  | succ k ih =>
    rw [Selector.power, selector, governed_selectorRule, iterate]
    simp only [ih]

/-- The alternatives of selectors. -/
def anyOf (limits : RecursionLimits) (context : Variable) (ss : List Selector) : Emit Variable :=
  alternatives context (ss.map fun s => selector .builtin limits s context)

theorem stays_sides (ss : List Selector) :
    ∀ m ∈ ss.map fun s => selector .builtin limits s context,
      m.Stays (· = context) fun v => [v] := by
  simp only [List.forall_mem_map]
  exact fun s _ => stays_selector limits s context

private theorem exists_run_of_anyOf (D : List Quad) {ss : List Selector} (hseed : seed.Avoids a)
    (hc : seed.value? context = some c) (hem : anyOf limits context ss a = .ok em) :
    ∀ s ∈ ss, Nonempty (Run D limits s context seed) := by
  intro s hs
  obtain ⟨ems, hems, -⟩ := alternatives_branches (stays_sides ss) hem (hseed.not_pending hc)
  rw [List.forall₂_map_left_iff] at hems
  obtain ⟨em', -, b, hb, hab⟩ := exists_of_forall₂_left hems hs
  obtain ⟨run, -⟩ := Run.exists_of_compiled D (hseed.later hab) hb
  exact ⟨run⟩

/-- Alternatives have the values that each of them offers. -/
theorem mem_values_anyOf {ss : List Selector} (hseed : seed.Avoids a)
    (hc : seed.value? context = some c) (hem : anyOf limits context ss a = .ok em)
    (hgrounded : ∀ s ∈ ss, ∃ run : Run D limits s context seed, run.Grounded) (n : Node) :
    n ∈ em.values D seed ↔ ∃ s ∈ ss, ∃ run : Run D limits s context seed, n ∈ run.offered := by
  obtain ⟨ems, hems, hvalues⟩ := values_alternatives (stays_sides ss) hem hseed hc (D := D) (by
    simp only [List.forall_mem_map]
    intro s hs b em' hab hem'
    obtain ⟨run, hrun⟩ := hgrounded s hs
    exact (offered_selector hc run.avoids (hseed.later hab) run.compiled hem').2.2 hrun)
  rw [List.forall₂_map_left_iff] at hems
  rw [hvalues]
  refine (exists_mem_iff_of_forall₂ hems ?_).symm
  rintro s em' ⟨b, hb, hab⟩
  constructor
  · rintro ⟨run, hn⟩
    rw [(offered_selector hc run.avoids (hseed.later hab) run.compiled hb).2.1, ← run.offered_eq]
    exact hn
  · intro hn
    obtain ⟨run, rfl⟩ := Run.exists_of_compiled D (hseed.later hab) hb
    exact ⟨run, run.offered_eq ▸ hn⟩

private theorem selector_union (left right : Selector) :
    selector .builtin limits (.union left right) context = anyOf limits context [left, right] := by
  rw [selector, governed_selectorRule]
  rfl

/-- A repetition compiles to its one depth, or to the alternatives of its depths. -/
theorem selector_recursive_ok {inner : Selector} {min : Nat} {max : Option Nat}
    (hem : selector .builtin limits (.recursive inner min max) context a = .ok em) :
    let bound := max.getD (Nat.max limits.maxDepth min)
    min ≤ bound ∧ if min = bound ∧ 0 < min then
      selector .builtin limits (inner.power min) context a = .ok em
    else
      anyOf limits context ((List.range (bound - min + 1)).map fun i => inner.power (min + i)) a =
        .ok em := by
  rw [selector, governed_selectorRule] at hem
  obtain ⟨bound, hbound, hem⟩ := ofExcept_bind_ok hem
  obtain ⟨hle, rfl⟩ := unrollingBound_ok hbound
  refine ⟨hle, ?_⟩
  simp only [unrolled] at hem
  split at hem
  · next hsingle => rwa [if_pos hsingle, selector_power]
  · next hsingle =>
    rw [if_neg hsingle, anyOf, List.map_map]
    simpa only [Function.comp_def, selector_power] using hem

private theorem mem_depths_iff {inner s : Selector} {min bound : Nat} (h : min ≤ bound) :
    s ∈ (List.range (bound - min + 1)).map (fun i => inner.power (min + i)) ↔
      ∃ k : Set.Icc min bound, inner.power k = s := by
  simp only [List.mem_map, List.mem_range, Subtype.exists, Set.mem_Icc]
  constructor
  · rintro ⟨i, hi, rfl⟩
    exact ⟨min + i, ⟨by omega, by omega⟩, rfl⟩
  · rintro ⟨k, ⟨hmin, hbound⟩, rfl⟩
    exact ⟨k - min, by omega, by rw [Nat.add_sub_cancel' hmin]⟩

end Compile

namespace Selector.Run

open Compile

variable {D : List Quad} {limits : RecursionLimits} {context : Variable} {seed : Row} {c : Node}

private theorem values_power_zero (hc : seed.value? context = some c) {inner : Selector}
    (run : Run D limits (inner.power 0) context seed) : run.values = {c} := by
  have hself := run.compiled
  rw [selector_power] at hself
  rw [run.values_eq, ← Except.ok.inj hself]
  ext n
  simp [Emission.mem_values, Group.found, Element.steps, Element.holdAll, hc, eq_comm]

private theorem values_union (hc : seed.value? context = some c) {left right : Selector}
    (u : Run D limits (.union left right) context seed) (l : Run D limits left context seed)
    (r : Run D limits right context seed) (hl : l.Grounded) (hr : r.Grounded) :
    u.values = l.offered ∪ r.offered := by
  have hem := u.compiled
  rw [selector_union] at hem
  have hgrounded : ∀ s ∈ [left, right], ∃ run : Run D limits s context seed, run.Grounded := by
    simp only [List.forall_mem_cons, List.not_mem_nil, false_implies, implies_true, and_true]
    exact ⟨⟨l, hl⟩, ⟨r, hr⟩⟩
  ext n
  rw [u.values_eq, mem_values_anyOf u.avoids hc hem hgrounded, Set.mem_union]
  constructor
  · rintro ⟨s, hs, run, hn⟩
    simp only [List.mem_cons, List.not_mem_nil, or_false] at hs
    rcases hs with rfl | rfl
    · exact .inl (offered_unique hc l run ▸ hn)
    · exact .inr (offered_unique hc r run ▸ hn)
  · rintro (hn | hn)
    · exact ⟨left, by simp, l, hn⟩
    · exact ⟨right, by simp, r, hn⟩

section Recursive

variable {inner : Selector} {min : Nat} {max : Option Nat}

private theorem nonempty_depths (hc : seed.value? context = some c)
    (u : Run D limits (.recursive inner min max) context seed) :
    ∀ k : Set.Icc min (max.getD (Nat.max limits.maxDepth min)),
      Nonempty (Run D limits (inner.power k) context seed) := by
  obtain ⟨hle, hem⟩ := selector_recursive_ok u.compiled
  rintro ⟨k, hmin, hbound⟩
  split at hem
  · next hsingle =>
    obtain rfl : k = min := by omega
    obtain ⟨run, -⟩ := exists_of_compiled D u.avoids hem
    exact ⟨run⟩
  · exact exists_run_of_anyOf D u.avoids hc hem _ ((mem_depths_iff hle).2 ⟨⟨k, hmin, hbound⟩, rfl⟩)

private theorem values_recursive_single (hc : seed.value? context = some c)
    (u : Run D limits (.recursive inner min max) context seed)
    (hsingle : min = max.getD (Nat.max limits.maxDepth min) ∧ 0 < min)
    (run : Run D limits (inner.power min) context seed) : u.values = run.values := by
  have hem := (selector_recursive_ok u.compiled).2
  rw [if_pos hsingle] at hem
  obtain ⟨run', hrun'⟩ := exists_of_compiled D u.avoids hem
  rw [values_unique hc run' run, u.values_eq, run'.values_eq, hrun']

private theorem values_recursive (hc : seed.value? context = some c)
    (u : Run D limits (.recursive inner min max) context seed)
    (hsingle : ¬ (min = max.getD (Nat.max limits.maxDepth min) ∧ 0 < min))
    (depths : ∀ k : Set.Icc min (max.getD (Nat.max limits.maxDepth min)),
      Run D limits (inner.power k) context seed)
    (hgrounded : ∀ k, (depths k).Grounded) : u.values = ⋃ k, (depths k).offered := by
  obtain ⟨hle, hem⟩ := selector_recursive_ok u.compiled
  rw [if_neg hsingle] at hem
  have hdepths := mem_values_anyOf (D := D) u.avoids hc hem (by
    intro s hs
    obtain ⟨k, rfl⟩ := (mem_depths_iff hle).1 hs
    exact ⟨depths k, hgrounded k⟩)
  ext n
  rw [u.values_eq, hdepths, Set.mem_iUnion]
  constructor
  · rintro ⟨s, hs, run, hn⟩
    obtain ⟨k, rfl⟩ := (mem_depths_iff hle).1 hs
    exact ⟨k, offered_unique hc (depths k) run ▸ hn⟩
  · rintro ⟨k, hn⟩
    exact ⟨_, (mem_depths_iff hle).2 ⟨k, rfl⟩, depths k, hn⟩

end Recursive

/-- A union lacks a value of its first side, by the outputs of runs of all three. -/
theorem exists_union_ne {left right : Selector} {a : Allocator} (hseed : seed.Avoids a) (cap : Nat)
    (us ls rs : List (Option Node))
    (hu : outputs? D limits (.union left right) context seed a cap = some us)
    (hl : outputs? D limits left context seed a cap = some ls)
    (hr : outputs? D limits right context seed a cap = some rs) {n : Node} (hn : some n ∈ ls)
    (hlost : some n ∉ us) :
    ∃ (u : Run D limits (.union left right) context seed) (l : Run D limits left context seed)
      (r : Run D limits right context seed), u.values ≠ l.values ∪ r.values := by
  obtain ⟨u, hu⟩ := exists_of_outputs hseed hu
  obtain ⟨l, hl⟩ := exists_of_outputs hseed hl
  obtain ⟨r, -⟩ := exists_of_outputs hseed hr
  refine ⟨u, l, r, fun heq => hlost ?_⟩
  have hmem : n ∈ u.values := by
    rw [heq, hl]
    exact .inl hn
  rwa [hu] at hmem

end Selector.Run

open Selector

/-- A union has the values that its two sides offer, and a repetition those that its depths offer,
of which the one without a step has the context itself; a single depth needs no alternatives. Sides
and depths can be run if the whole can. -/
theorem union_repetition_exact {D : List Quad} {limits : RecursionLimits} {context : Variable}
    {seed : Row} {c : Node} (hc : seed.value? context = some c) :
    (∀ {left right : Selector} (u : Run D limits (.union left right) context seed),
      Nonempty (Run D limits left context seed) ∧ Nonempty (Run D limits right context seed) ∧
      ∀ (l : Run D limits left context seed) (r : Run D limits right context seed),
        l.Grounded → r.Grounded → u.values = l.offered ∪ r.offered) ∧
    (∀ {inner : Selector} {min : Nat} {max : Option Nat}
        (u : Run D limits (.recursive inner min max) context seed),
      let bound := max.getD (Nat.max limits.maxDepth min)
      (∀ k : Set.Icc min bound, Nonempty (Run D limits (inner.power k) context seed)) ∧
      ∀ depths : (k : Set.Icc min bound) → Run D limits (inner.power k) context seed,
        (min = bound ∧ 0 < min → u.values = ⋃ k, (depths k).values) ∧
        (¬ (min = bound ∧ 0 < min) → (∀ k, (depths k).Grounded) →
          u.values = ⋃ k, (depths k).offered)) ∧
    ∀ {inner : Selector} (run : Run D limits (inner.power 0) context seed), run.values = {c} := by
  refine ⟨fun {left right} u => ?_, fun u => ⟨Run.nonempty_depths hc u, fun depths =>
    ⟨fun hsingle => ?_, fun hsingle => Run.values_recursive hc u hsingle depths⟩⟩,
    Run.values_power_zero hc⟩
  · have hem := u.compiled
    rw [Compile.selector_union] at hem
    have hsides := Compile.exists_run_of_anyOf D u.avoids hc hem
    exact ⟨hsides left (by simp), hsides right (by simp), Run.values_union hc u⟩
  · ext n
    rw [Set.mem_iUnion]
    constructor
    · intro hn
      have hmin := Run.values_recursive_single hc u hsingle (depths ⟨_, le_rfl, hsingle.1.le⟩)
      exact ⟨⟨_, le_rfl, hsingle.1.le⟩, hmin ▸ hn⟩
    · rintro ⟨⟨k, hmin, hbound⟩, hn⟩
      obtain rfl := le_antisymm (hbound.trans hsingle.1.ge) hmin
      rw [Run.values_recursive_single hc u hsingle (depths ⟨k, hmin, hbound⟩)]
      exact hn

/-- A union of a computed value and a text that is stored nowhere, and a repetition of at most one
step. -/
theorem union_repetition_exact_computed :
    let p : Iri := ⟨"http://e/p"⟩
    let D : List Quad := [⟨⟨"http://e/a"⟩, p, .iri ⟨"http://e/b"⟩, none⟩]
    let left : Selector := .function "str" [.property p]
    let right : Selector := .constant (.literal (.plain "c"))
    let seed := Row.bind .empty ⟨"x"⟩ (.iri ⟨"http://e/a"⟩)
    seed.value? ⟨"x"⟩ = some (.iri ⟨"http://e/a"⟩) ∧
    (∃ (u : Run D {} (.union left right) ⟨"x"⟩ seed) (l : Run D {} left ⟨"x"⟩ seed)
      (r : Run D {} right ⟨"x"⟩ seed), l.Grounded ∧ r.Grounded ∧
        u.values = l.offered ∪ r.offered) ∧
    ∃ (u : Run D {} (.recursive (.property p) 0 (some 1)) ⟨"x"⟩ seed)
      (depths : (k : Set.Icc 0 1) → Run D {} (Selector.power (.property p) k) ⟨"x"⟩ seed),
      (∀ k, (depths k).Grounded) ∧ u.values = ⋃ k, (depths k).offered := by
  intro p D left right seed
  have hc : seed.value? ⟨"x"⟩ = some (.iri ⟨"http://e/a"⟩) := by simp [seed]
  have hseed : seed.Avoids ⟨"v", ⟨"x"⟩, 0⟩ :=
    Row.avoids_bind_empty (Allocator.root_not_pending ⟨"v", ⟨"x"⟩, 0⟩) _
  have hexact := @union_repetition_exact D {} _ _ _ hc
  refine ⟨hc, ?_, ?_⟩
  · obtain ⟨u, -⟩ := Run.exists_grounded D {} (.union left right) ⟨"x"⟩ hseed (by decide +kernel)
    obtain ⟨l, hl⟩ := Run.exists_grounded D {} left ⟨"x"⟩ hseed (by decide +kernel)
    obtain ⟨r, hr⟩ := Run.exists_grounded D {} right ⟨"x"⟩ hseed (by decide +kernel)
    exact ⟨u, l, r, hl, hr, (hexact.1 u).2.2 l r hl hr⟩
  · obtain ⟨u, -⟩ := Run.exists_grounded D {} (.recursive (.property p) 0 (some 1)) ⟨"x"⟩ hseed
      (by decide +kernel)
    have hdepths : ∀ k : Set.Icc 0 1,
        ∃ run : Run D {} (Selector.power (.property p) k) ⟨"x"⟩ seed, run.Grounded := by
      rintro ⟨k, -, hk⟩
      obtain rfl | rfl : k = 0 ∨ k = 1 := by omega
      · exact Run.exists_grounded D {} (Selector.power (.property p) 0) ⟨"x"⟩ hseed
          (by decide +kernel)
      · exact Run.exists_grounded D {} (Selector.power (.property p) 1) ⟨"x"⟩ hseed
          (by decide +kernel)
    choose depths hgrounded using hdepths
    exact ⟨u, depths, hgrounded, ((hexact.2.1 u).2 depths).2 (by decide) hgrounded⟩

/-- Unions that lack a value of their first side: one that gives back a context that is stored
nowhere, one that computes a text from a context that it does not know, and one that tests it. -/
theorem union_loses_values :
    let p : Iri := ⟨"http://e/p"⟩
    let D : List Quad := [⟨⟨"http://e/a"⟩, p, .literal (.plain "b"), none⟩]
    let loses (left : Selector) (n : Node) : Prop :=
      ∃ (u : Run D {} (.union left (.property p)) ⟨"x"⟩ (Row.bind .empty ⟨"x"⟩ n))
        (l : Run D {} left ⟨"x"⟩ (Row.bind .empty ⟨"x"⟩ n))
        (r : Run D {} (.property p) ⟨"x"⟩ (Row.bind .empty ⟨"x"⟩ n)), u.values ≠ l.values ∪ r.values
    loses .self (.literal (.plain "c")) ∧
      loses (.function "str" [.self]) (.iri ⟨"http://e/a"⟩) ∧
      loses (.path (.testing .self (.datatype Iri.xsdString)) (.constant (.literal (.plain "d"))))
        (.literal (.plain "b")) := by
  intro p D loses
  have hseed (n : Node) : (Row.bind .empty ⟨"x"⟩ n).Avoids ⟨"v", ⟨"x"⟩, 0⟩ :=
    Row.avoids_bind_empty (Allocator.root_not_pending ⟨"v", ⟨"x"⟩, 0⟩) n
  refine ⟨?_, ?_, ?_⟩
  · exact Run.exists_union_ne (hseed _) 9 [] [some (.literal (.plain "c"))] []
      (by decide +kernel) (by decide +kernel) (by decide +kernel) List.mem_cons_self (by decide)
  · exact Run.exists_union_ne (hseed _) 9 [none, some (.literal (.plain "b"))]
      [some (.literal (.plain "http://e/a"))] [some (.literal (.plain "b"))]
      (by decide +kernel) (by decide +kernel) (by decide +kernel) List.mem_cons_self (by decide)
  · exact Run.exists_union_ne (hseed _) 9 [] [some (.literal (.plain "d"))] []
      (by decide +kernel) (by decide +kernel) (by decide +kernel) List.mem_cons_self (by decide)

end GraphPath
