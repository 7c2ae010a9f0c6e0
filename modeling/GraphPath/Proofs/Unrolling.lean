import GraphPath.Proofs.Counter
import GraphPath.Proofs.Faults

/-!
# What a repetition is unrolled to

A repetition is refused if its bounds are inverted, or if it has no upper bound, goes deeper or has
more depths than the limits allow; and it fails if memory has no room for its depths. Otherwise it
is unrolled to all depths between its bounds, in increasing order and each once: a depth is that
many steps one after the other, and several depths are the branches of one union. The depths are
counted in machine words, and no count wraps round. The counter of the fresh variables is a machine
word too, and where the allocator ends beyond the words it has overflowed.
-/

namespace GraphPath

namespace Emit

variable {step : Variable → Emit Variable} {context : Variable}

/-- A number of steps one after the other: each starts from the value and the allocator that the one
before left, and what they write stands in their order. -/
inductive Iterated (step : Variable → Emit Variable) :
    Nat → Variable → Allocator → Emission Variable → Prop
  | none (v : Variable) (a : Allocator) : Iterated step 0 v a ⟨v, [], a⟩
  | more {n : Nat} {v : Variable} {a : Allocator} {first rest : Emission Variable}
      (head : step v a = .ok first) (tail : Iterated step n first.value first.allocator rest) :
      Iterated step (n + 1) v a ⟨rest.value, first.elements ++ rest.elements, rest.allocator⟩

/-- Repetitions of some depths from one context, each from the allocator that the one before
left. -/
inductive IteratedEach (step : Variable → Emit Variable) (context : Variable) :
    List Nat → Allocator → List (Emission Variable) → Allocator → Prop
  | nil (a : Allocator) : IteratedEach step context [] a [] a
  | cons {depth : Nat} {depths : List Nat} {a a' : Allocator} {em : Emission Variable}
      {ems : List (Emission Variable)} (head : Iterated step depth context a em)
      (tail : IteratedEach step context depths em.allocator ems a') :
      IteratedEach step context (depth :: depths) a (em :: ems) a'

private theorem iterated_of_iterate {n : Nat} {v : Variable} {a : Allocator}
    {em : Emission Variable} (h : iterate step n v a = .ok em) : Iterated step n v a em := by
  induction n generalizing v a em with
  | zero =>
    cases h
    exact .none v a
  | succ n ih =>
    obtain ⟨first, rest, hfirst, hrest, rfl⟩ := bind_ok h
    exact .more hfirst (ih hrest)

private theorem iteratedEach_of_runs {depths : List Nat} {a a' : Allocator}
    {ems : List (Emission Variable)}
    (h : Runs (depths.map fun depth => iterate step depth context) a ems a') :
    IteratedEach step context depths a ems a' := by
  induction depths generalizing a ems with
  | nil =>
    cases h
    exact .nil _
  | cons depth depths ih =>
    obtain _ | ⟨hhead, htail⟩ := h
    exact .cons (iterated_of_iterate hhead) (ih htail)

end Emit

/-- The errors that say what is wrong with the expression itself. -/
def CompileError.isTranslation : CompileError → Bool
  | invertedBounds .. => true
  | refused _ => true
  | _ => false

/-- The limits that are given as machine words. -/
def RecursionLimits.ofWords (maxDepth : UInt64) (strict : Bool) (maxExplicitDepth : UInt64) :
    RecursionLimits :=
  ⟨maxDepth.toNat, strict, maxExplicitDepth.toNat⟩

namespace Compile

open Emit

/-- A branch of the union: what its steps wrote, then any resource if they lead back to the context,
and then its value as the common output. -/
def IsBranch (context output : Variable) (em : Emission Variable) (g : Group) : Prop :=
  ∃ b : Allocator, g = em.elements ++
    (if em.value = context then [anyResource context b] else []) ++ [.bind (.var em.value) output]

/-- What unrolling to the depths from `min` to `bound` emits: one depth above zero as it is, and
otherwise a union with one branch for each depth. -/
def Unrolling (step : Variable → Emit Variable) (context : Variable) (min bound : Nat)
    (a : Allocator) (em : Emission Variable) : Prop :=
  if min = bound ∧ 0 < min then Iterated step min context a em
  else ∃ ems a' groups,
    IteratedEach step context (List.range' min (bound - min + 1)) a ems a' ∧
    em.value = a'.fresh.1 ∧ em.elements = [.union groups] ∧
    List.Forall₂ (IsBranch context em.value) ems groups

/-- The difference of the bounds, the number of depths and every depth itself are the same numbers
in machine words. -/
structure DepthsFit (min bound : UInt64) : Prop where
  difference : min.toNat + (bound - min).toNat = bound.toNat
  count : (bound - min + 1).toNat = (bound - min).toNat + 1
  depth : ∀ i, i < bound - min + 1 → (min + i).toNat = min.toNat + i.toNat ∧ min + i ≤ bound

private theorem depthsFit {min bound : UInt64} (hle : min ≤ bound)
    (hcount : bound.toNat - min.toNat + 1 < UInt64.size) : DepthsFit min bound := by
  rw [UInt64.le_iff_toNat_le] at hle
  have hbound := bound.toNat_lt
  have hdifference : min.toNat + (bound - min).toNat = bound.toNat := by
    rw [UInt64.toNat_sub]
    omega
  have hsucc : (bound - min + 1).toNat = (bound - min).toNat + 1 := by
    have hone : (1 : UInt64).toNat = 1 := rfl
    rw [UInt64.toNat_add, hone]
    exact Nat.mod_eq_of_lt (by simp only [UInt64.size] at hcount; omega)
  refine ⟨hdifference, hsucc, fun i hi => ?_⟩
  rw [UInt64.lt_iff_toNat_lt, hsucc] at hi
  have hdepth : (min + i).toNat = min.toNat + i.toNat := by
    rw [UInt64.toNat_add]
    exact Nat.mod_eq_of_lt (by omega)
  refine ⟨hdepth, ?_⟩
  rw [UInt64.le_iff_toNat_le, hdepth]
  omega

private theorem isBranch_closings (context output : Variable) (ems : List (Emission Variable))
    (a : Allocator) :
    List.Forall₂ (IsBranch context output) ems (closings context output ems a).1 := by
  induction ems generalizing a with
  | nil => exact .nil
  | cons em rest ih =>
    refine .cons ⟨a, ?_⟩ (ih _)
    change em.elements ++ (closing context output em.value a).1 = _
    unfold closing
    split <;> simp

private theorem unrolling_of_unrolled {step : Variable → Emit Variable} {context : Variable}
    {min bound : Nat} {a : Allocator} {em : Emission Variable}
    (h : unrolled step min bound context a = .ok em) : Unrolling step context min bound a em := by
  unfold unrolled at h
  unfold Unrolling
  split at h
  · next hsingle =>
    rw [if_pos hsingle]
    exact iterated_of_iterate h
  · next hsingle =>
    rw [if_neg hsingle]
    obtain ⟨ems, a', hruns, rfl⟩ := alternatives_ok h
    refine ⟨ems, a', _, iteratedEach_of_runs ?_, rfl, rfl, isBranch_closings _ _ _ _⟩
    rw [List.range'_eq_map_range, List.map_map]
    exact hruns

section

variable {limits : RecursionLimits} {min : Nat} {max : Option Nat}

private theorem le_getD_max (hordered : ∀ m ∈ max, min ≤ m) (maxDepth : Nat) :
    min ≤ max.getD (Nat.max maxDepth min) := by
  cases max with
  | none => exact Nat.le_max_right maxDepth min
  | some m => exact hordered m rfl

/-- The limits that a repetition may exceed: it has no upper bound where it needs one, goes too
deep, or has more depths than a machine word counts. -/
def Exceeds (limits : RecursionLimits) (min : Nat) (max : Option Nat) : Prop :=
  let bound := max.getD (Nat.max limits.maxDepth min)
  max = none ∧ limits.strict = true ∨ limits.maxExplicitDepth < bound ∨
    Parser.wordLimit ≤ bound - min + 1

private theorem unrollingBound_of_exceeds (hordered : ∀ m ∈ max, min ≤ m)
    (h : Exceeds limits min max) :
    ∃ limit, unrollingBound limits min max = .error (.recursionLimit min limit) := by
  by_cases hunbounded : max = none ∧ limits.strict = true
  · obtain ⟨rfl, hstrict⟩ := hunbounded
    exact ⟨limits.maxDepth, unrollingBound_of_strict hstrict⟩
  · refine ⟨limits.maxExplicitDepth, ?_⟩
    rw [unrollingBound_of_ordered hordered hunbounded]
    exact if_pos (h.resolve_left hunbounded)

private theorem unrollingBound_of_not_exceeds (hordered : ∀ m ∈ max, min ≤ m)
    (h : ¬ Exceeds limits min max) {bound : Nat}
    (hbound : max.getD (Nat.max limits.maxDepth min) = bound) :
    unrollingBound limits min max =
      if branchLimit < bound - min + 1 then .error (.noRoom (bound - min + 1)) else .ok bound := by
  obtain ⟨hbounded, hwithin⟩ := not_or.1 h
  rw [hbound] at hwithin
  rw [unrollingBound_of_ordered hordered hbounded, hbound]
  exact if_neg hwithin

end

private theorem selector_recursive {r : Registry} (hrule : r.selectors .recursive = some .builtin)
    (limits : RecursionLimits) (inner : Selector) (min : Nat) (max : Option Nat)
    (context : Variable) :
    selector r limits (.recursive inner min max) context = (do
      let bound ← ofExcept (unrollingBound limits min max)
      unrolled (fun c => selector r limits inner c) min bound context) := by
  have hbuiltin : r.selectorRule .recursive = .ok .builtin := by
    unfold Registry.selectorRule
    rw [hrule]
  rw [selector]
  change governed (r.selectorRule .recursive) _ _ = _
  rw [hbuiltin]
  rfl

section

variable {r : Registry} {limits : RecursionLimits} {inner : Selector} {min bound : Nat}
  {max : Option Nat}

private theorem selector_recursive_of_inverted (hrule : r.selectors .recursive = some .builtin)
    {m : Nat} (h : m < min) (context : Variable) (a : Allocator) :
    selector r limits (.recursive inner min (some m)) context a =
      .error (.invertedBounds min m) := by
  rw [selector_recursive hrule, unrollingBound_of_inverted h]
  rfl

private theorem selector_recursive_of_exceeds (hrule : r.selectors .recursive = some .builtin)
    (hordered : ∀ m ∈ max, min ≤ m) (h : Exceeds limits min max) (context : Variable)
    (a : Allocator) :
    ∃ limit, selector r limits (.recursive inner min max) context a =
      .error (.recursionLimit min limit) := by
  obtain ⟨limit, hlimit⟩ := unrollingBound_of_exceeds hordered h
  refine ⟨limit, ?_⟩
  rw [selector_recursive hrule, hlimit]
  rfl

private theorem selector_recursive_without_room (hrule : r.selectors .recursive = some .builtin)
    (hordered : ∀ m ∈ max, min ≤ m) (h : ¬ Exceeds limits min max)
    (hbound : max.getD (Nat.max limits.maxDepth min) = bound)
    (hroom : branchLimit < bound - min + 1) (context : Variable) (a : Allocator) :
    selector r limits (.recursive inner min max) context a =
      .error (.noRoom (bound - min + 1)) := by
  rw [selector_recursive hrule, unrollingBound_of_not_exceeds hordered h hbound, if_pos hroom]
  rfl

/-- A step that compiles everywhere is unrolled to all depths. -/
theorem selector_recursive_unrolls (hrule : r.selectors .recursive = some .builtin)
    (hinner : ∀ c b, ∃ em, selector r limits inner c b = .ok em) (hordered : ∀ m ∈ max, min ≤ m)
    (h : ¬ Exceeds limits min max) (hbound : max.getD (Nat.max limits.maxDepth min) = bound)
    (hroom : ¬ branchLimit < bound - min + 1) (context : Variable) (a : Allocator) :
    ∃ em, selector r limits (.recursive inner min max) context a = .ok em ∧
      Unrolling (fun c => selector r limits inner c) context min bound a em := by
  have hle : min ≤ bound := hbound ▸ le_getD_max hordered limits.maxDepth
  have hstep : ∀ c, (selector r limits inner c).FaultIs none fun _ => True := by
    intro c
    refine faultIs_of_ok fun b => ?_
    obtain ⟨em, hem⟩ := hinner c b
    exact ⟨em, hem, trivial⟩
  obtain ⟨em, hem, -⟩ := (faultIs_unrolled hstep hle context).succeeds a (ite_self none)
  refine ⟨em, ?_, unrolling_of_unrolled hem⟩
  rw [selector_recursive hrule, unrollingBound_of_not_exceeds hordered h hbound, if_neg hroom]
  exact (congrFun (done_andThen _ _) a).trans hem

end

/-! ## Bounds and limits in machine words -/

private theorem getD_map_toNat (max : Option UInt64) (maxDepth min : UInt64) :
    (max.map UInt64.toNat).getD (Nat.max maxDepth.toNat min.toNat) =
      (max.getD (if maxDepth ≤ min then min else maxDepth)).toNat := by
  cases max with
  | some m => rfl
  | none =>
    change Nat.max maxDepth.toNat min.toNat =
      UInt64.toNat (if maxDepth ≤ min then min else maxDepth)
    split
    · next hle => exact Nat.max_eq_right (UInt64.le_iff_toNat_le.1 hle)
    · next hle => exact Nat.max_eq_left (Nat.le_of_not_le fun h => hle (UInt64.le_iff_toNat_le.2 h))

private theorem exceeds_ofWords_iff {max : Option UInt64} {maxDepth maxExplicitDepth min : UInt64}
    {strict : Bool} :
    Exceeds (.ofWords maxDepth strict maxExplicitDepth) min.toNat (max.map UInt64.toNat) ↔
      max = none ∧ strict = true ∨
        maxExplicitDepth < max.getD (if maxDepth ≤ min then min else maxDepth) ∨
        UInt64.size ≤
          (max.getD (if maxDepth ≤ min then min else maxDepth)).toNat - min.toNat + 1 := by
  unfold Exceeds
  simp only [RecursionLimits.ofWords, getD_map_toNat, Option.map_eq_none_iff,
    UInt64.lt_iff_toNat_lt]
  rfl

/-- A repetition of a step that compiles everywhere fails for its bounds exactly if they are
inverted, for the limits exactly if it exceeds them, and for want of room exactly if it does neither
and has too many depths. Otherwise it compiles to every depth between its bounds once, and no
machine word that counts depths wraps round; the counter of the fresh variables overflows exactly if
the allocator ends beyond the words. -/
theorem repetition_unrolled {r : Registry} (hr : r.Advances)
    (hrule : r.selectors .recursive = some .builtin)
    (maxDepth maxExplicitDepth min : UInt64) (strict : Bool) (max : Option UInt64)
    {inner : Selector} (hinner : ∀ c b, ∃ em,
      selector r (.ofWords maxDepth strict maxExplicitDepth) inner c b = .ok em)
    (context : Variable) {a : Allocator} (ha : a.next < UInt64.size) :
    let limits := RecursionLimits.ofWords maxDepth strict maxExplicitDepth
    let result := selector r limits (.recursive inner min.toNat (max.map UInt64.toNat)) context a
    let bound := max.getD (if maxDepth ≤ min then min else maxDepth)
    let inverted := ∃ m ∈ max, m < min
    let exceeding := max = none ∧ strict = true ∨ maxExplicitDepth < bound ∨
      UInt64.size ≤ bound.toNat - min.toNat + 1
    let crowded := branchLimit < bound.toNat - min.toNat + 1
    ((∃ e, result = .error e ∧ e.isTranslation = true) ↔ inverted) ∧
    ((∃ depth limit, result = .error (.recursionLimit depth limit)) ↔
      ¬ inverted ∧ exceeding) ∧
    ((∃ depths, result = .error (.noRoom depths)) ↔ ¬ inverted ∧ ¬ exceeding ∧ crowded) ∧
    (¬ inverted → ¬ exceeding → ¬ crowded → DepthsFit min bound ∧ ∃ em, result = .ok em ∧
      Unrolling (fun c => selector r limits inner c) context min.toNat bound.toNat a em ∧
      ((∃ vars, Allocator.Searches a vars em.allocator) ↔ em.allocator.next < UInt64.size)) := by
  intro limits result bound inverted exceeding crowded
  by_cases hinverted : inverted
  · obtain ⟨m, hm, hlt⟩ := hinverted
    obtain rfl : max = some m := hm
    have hresult : result = .error (.invertedBounds min.toNat m.toNat) :=
      selector_recursive_of_inverted hrule (UInt64.lt_iff_toNat_lt.1 hlt) context a
    have hyes : inverted := ⟨m, rfl, hlt⟩
    refine ⟨⟨fun _ => hyes, fun _ => ⟨_, hresult, rfl⟩⟩, ⟨?_, fun h => absurd hyes h.1⟩,
      ⟨?_, fun h => absurd hyes h.1⟩, fun h => absurd hyes h⟩
    · rintro ⟨depth, limit, herror⟩
      cases hresult.symm.trans herror
    · rintro ⟨depths, herror⟩
      cases hresult.symm.trans herror
  have hordered : ∀ m ∈ max.map UInt64.toNat, min.toNat ≤ m := by
    intro m hm
    obtain ⟨word, hword, rfl⟩ := Option.map_eq_some_iff.1 hm
    exact Nat.le_of_not_lt fun hlt => hinverted ⟨word, hword, UInt64.lt_iff_toNat_lt.2 hlt⟩
  by_cases hexceeding : exceeding
  · obtain ⟨limit, hresult⟩ : ∃ limit, result = .error (.recursionLimit min.toNat limit) :=
      selector_recursive_of_exceeds hrule hordered (exceeds_ofWords_iff.2 hexceeding) context a
    refine ⟨⟨?_, fun h => absurd h hinverted⟩,
      ⟨fun _ => ⟨hinverted, hexceeding⟩, fun _ => ⟨_, limit, hresult⟩⟩,
      ⟨?_, fun h => absurd hexceeding h.2.1⟩, fun _ h => absurd hexceeding h⟩
    · rintro ⟨e, herror, htranslation⟩
      cases hresult.symm.trans herror
      cases htranslation
    · rintro ⟨depths, herror⟩
      cases hresult.symm.trans herror
  have hwithin := mt exceeds_ofWords_iff.1 hexceeding
  have hbound : (max.map UInt64.toNat).getD (Nat.max limits.maxDepth min.toNat) = bound.toNat :=
    getD_map_toNat max maxDepth min
  by_cases hcrowded : crowded
  · have hresult : result = .error (.noRoom (bound.toNat - min.toNat + 1)) :=
      selector_recursive_without_room hrule hordered hwithin hbound hcrowded context a
    refine ⟨⟨?_, fun h => absurd h hinverted⟩, ⟨?_, fun h => absurd h.2 hexceeding⟩,
      ⟨fun _ => ⟨hinverted, hexceeding, hcrowded⟩, fun _ => ⟨_, hresult⟩⟩,
      fun _ _ h => absurd hcrowded h⟩
    · rintro ⟨e, herror, htranslation⟩
      cases hresult.symm.trans herror
      cases htranslation
    · rintro ⟨depth, limit, herror⟩
      cases hresult.symm.trans herror
  obtain ⟨em, hresult, hunrolled⟩ := selector_recursive_unrolls hrule hinner hordered hwithin
    hbound hcrowded context a
  have hadvances : a.Advances em.allocator := advances_selector hr limits _ context a em hresult
  refine ⟨⟨?_, fun h => absurd h hinverted⟩, ⟨?_, fun h => absurd h.2 hexceeding⟩,
    ⟨?_, fun h => absurd h.2.2 hcrowded⟩,
    fun _ _ _ => ⟨depthsFit ?_ ?_, em, hresult, hunrolled, ?_⟩⟩
  · rintro ⟨e, herror, -⟩
    cases hresult.symm.trans herror
  · rintro ⟨depth, limit, herror⟩
    cases hresult.symm.trans herror
  · rintro ⟨depths, herror⟩
    cases hresult.symm.trans herror
  · rw [UInt64.le_iff_toNat_le, ← hbound]
    exact le_getD_max hordered limits.maxDepth
  · exact Nat.lt_of_not_le fun h => hexceeding (.inr (.inr h))
  · rw [Allocator.exists_searches_iff ha, and_iff_right hadvances]

private theorem next_of_iterated_wildcard {limits : RecursionLimits} {n : Nat} {v : Variable}
    {a : Allocator} {em : Emission Variable} (hclear : a.Clear)
    (h : Iterated (fun c => selector .builtin limits .wildcard c) n v a em) :
    em.allocator.next = a.next + 2 * n := by
  induction h with
  | none v a => rfl
  | @more n v a first rest head tail ih =>
    have hfirst : first.allocator = { a with next := a.next + 2 } := by
      change alongAny v a = .ok first at head
      rw [alongAny_apply] at head
      cases head
      exact congrArg Prod.snd (Allocator.freshes_of_clear hclear 2)
    have hrest := ih fun k hk => by
      rw [hfirst] at hk ⊢
      exact hclear k (Nat.le_of_succ_le (Nat.le_of_succ_le hk))
    rw [hrest, hfirst]
    change a.next + 2 + 2 * n = a.next + 2 * (n + 1)
    omega

/-- Depths 0 to 2, where the first leads back to the context; the largest bound without a ceiling,
which has one depth too many; inverted bounds; and the deepest single depth for which two variables
a step do not exhaust the counter. -/
theorem repetition_unrolled_extremes :
    let tested : Selector :=
      .testing (.property ⟨"http://e/p"⟩) (.pathExists (.reverse ⟨"http://e/q"⟩))
    let limits := RecursionLimits.ofWords 5 false 0xffffffffffffffff
    let x : Variable := ⟨"x"⟩
    let a : Allocator := .ofSettings {}
    let repetition (inner : Selector) (min : Nat) (max : Option Nat) :=
      selector .builtin limits (.recursive inner min max) x a
    (∃ em, repetition tested 0 (some 2) = .ok em ∧
      (∃ vars, Allocator.Searches a vars em.allocator) ∧
      ∃ ems a' groups, em.elements = [.union groups] ∧
        IteratedEach (fun c => selector .builtin limits tested c) x [0, 1, 2] a ems a' ∧
        List.Forall₂ (IsBranch x em.value) ems groups) ∧
    (∃ depth limit, repetition tested 0 (some 0xffffffffffffffff) =
      .error (.recursionLimit depth limit)) ∧
    (∃ e, repetition tested 3 (some 1) = .error e ∧ e.isTranslation = true) ∧
    ∃ em, repetition .wildcard 0x7fffffffffffffff none = .ok em ∧
      ∃ vars, Allocator.Searches a vars em.allocator := by
  intro tested limits x a repetition
  have hinner (inner : Selector) (hnone : inner.fault? limits = none) (c : Variable)
      (b : Allocator) : ∃ em, selector .builtin limits inner c b = .ok em := by
    obtain ⟨em, hem, -⟩ := (faultIs_selector limits inner c).succeeds b hnone
    exact ⟨em, hem⟩
  have hroom : a.next < UInt64.size := by decide
  have htested (min : UInt64) (max : Option UInt64) := repetition_unrolled
    Registry.advances_builtin rfl 5 0xffffffffffffffff min false max (hinner tested rfl) x hroom
  refine ⟨?_, (htested 0 (some 0xffffffffffffffff)).2.1.2 (by decide),
    (htested 3 (some 1)).1.2 (by decide), ?_⟩
  · have hnext : (repetition tested 0 (some 2)).toOption.any
        (fun em => em.allocator.next < UInt64.size) = true := by decide +kernel
    obtain ⟨em', hem', hfits⟩ := exists_ok_of_any hnext
    obtain ⟨-, em, hem, hunrolling, hcounter⟩ :=
      (htested 0 (some 2)).2.2.2 (by decide) (by decide) (by decide)
    obtain ⟨ems, a', groups, hems, -, helements, hgroups⟩ := hunrolling
    obtain rfl := Except.ok.inj (hem'.symm.trans hem)
    exact ⟨em', hem, hcounter.2 (of_decide_eq_true hfits), ems, a', groups, helements, hems,
      hgroups⟩
  · obtain ⟨-, em, hem, hunrolling, hcounter⟩ := (repetition_unrolled Registry.advances_builtin rfl
      5 0xffffffffffffffff 0x7fffffffffffffff false none (hinner .wildcard rfl) x hroom).2.2.2
      (by decide) (by decide) (by decide)
    refine ⟨em, hem, hcounter.2 ?_⟩
    have hvalid : Settings.validate {} = .ok () := by decide +kernel
    have hnext := next_of_iterated_wildcard (Allocator.clear_of_validate hvalid) hunrolling
    rw [hnext]
    decide

/-- Within all limits, a repetition of a step that writes nothing has more depths than memory has
room for; and a repetition of one that takes two variables exhausts the counter. -/
theorem repetition_without_room :
    let limits := RecursionLimits.ofWords 5 false 0xffffffffffffffff
    let x : Variable := ⟨"x"⟩
    let a : Allocator := .ofSettings {}
    let repetition (inner : Selector) (min max : UInt64) :=
      selector .builtin limits (.recursive inner min.toNat (some max.toNat)) x a
    (∀ c b, ∃ em, selector .builtin limits .self c b = .ok em) ∧
    ¬ Exceeds limits 0 (some 3999999999999999999) ∧
    repetition .self 0 3999999999999999999 = .error (.noRoom 4000000000000000000) ∧
    (∀ c b, ∃ em, selector .builtin limits .wildcard c b = .ok em) ∧
    ¬ Exceeds limits 0x8000000000000000 (some 0x8000000000000000) ∧
    ∃ em, repetition .wildcard 0x8000000000000000 0x8000000000000000 = .ok em ∧
      ¬ ∃ vars, Allocator.Searches a vars em.allocator := by
  intro limits x a repetition
  have hself (c : Variable) (b : Allocator) : ∃ em, selector .builtin limits .self c b = .ok em :=
    ⟨_, rfl⟩
  have hwildcard (c : Variable) (b : Allocator) :
      ∃ em, selector .builtin limits .wildcard c b = .ok em := ⟨_, alongAny_apply c b⟩
  have hwithin : ¬ Exceeds limits 0 (some 3999999999999999999) := by
    unfold Exceeds
    decide
  have hwithin' : ¬ Exceeds limits 0x8000000000000000 (some 0x8000000000000000) := by
    unfold Exceeds
    decide
  have hordered : ∀ m ∈ some 0x8000000000000000, 0x8000000000000000 ≤ m := by simp
  obtain ⟨em, hem, hunrolling⟩ := selector_recursive_unrolls rfl hwildcard hordered hwithin' rfl
    (by decide) x a
  refine ⟨hself, hwithin, selector_recursive_without_room rfl (by simp) hwithin rfl (by decide) x a,
    hwildcard, hwithin', em, hem, ?_⟩
  rw [Allocator.exists_searches_iff (by decide)]
  rintro ⟨-, hfits⟩
  have hvalid : Settings.validate {} = .ok () := by decide +kernel
  rw [next_of_iterated_wildcard (Allocator.clear_of_validate hvalid) hunrolling] at hfits
  revert hfits
  decide

end Compile

end GraphPath
