import GraphPath.Session.Basic

/-!
# What the built-in rules emit

What it means that a sequence of steps or a union of branches has been compiled, and that the
built-in registry leaves every kind of node to its built-in rule.
-/

namespace GraphPath

theorem exists_ok_of_isOk {ε α : Type} {x : Except ε α} (h : x.isOk = true) : ∃ y, x = .ok y := by
  cases x with
  | error e => cases h
  | ok y => exact ⟨y, rfl⟩

theorem exists_ok_of_any {ε α : Type} {x : Except ε α} {p : α → Bool}
    (h : x.toOption.any p = true) : ∃ y, x = .ok y ∧ p y = true := by
  cases x with
  | error e => cases h
  | ok y => exact ⟨y, rfl, h⟩

theorem exists_of_bind_ok {ε α β : Type} {x : Except ε α} {f : α → Except ε β} {z : β}
    (h : (x >>= f) = .ok z) : ∃ y, x = .ok y ∧ f y = .ok z := by
  cases x with
  | error e => cases h
  | ok y => exact ⟨y, rfl, h⟩

theorem eq_ok_of_mapError_ok {ε ε' α : Type} {x : Except ε α} {f : ε → ε'} {y : α}
    (h : x.mapError f = .ok y) : x = .ok y := by
  cases x with
  | error e => cases h
  | ok y => exact congrArg Except.ok (Except.ok.inj h)

private theorem Table.get?_insertAll_map {β γ : Type} (f : β → γ) (pairs : List (String × β))
    {t : Table β} {t' : Table γ} (h : ∀ name, t'.get? name = (t.get? name).map f) (name : String) :
    (t'.insertAll (pairs.map fun p => (p.1, f p.2))).get? name =
      ((t.insertAll pairs).get? name).map f := by
  induction pairs generalizing t t' with
  | nil => exact h name
  | cons pair rest ih =>
    refine ih fun key => ?_
    rw [get?_insert, get?_insert, h]
    split <;> rfl

theorem Registry.function_eq_ok_iff {r : Registry} {name : String} {f : FunctionRule} :
    r.function name = .ok f ↔ r.functions.get? name = some f := by
  unfold Registry.function
  cases r.functions.get? name <;> simp

/-- The built-in function of a name. -/
def PathFunction.named? (name : String) : Option PathFunction :=
  (Table.empty.insertAll builtins).get? name

/-- A function of the built-in registry is the built-in function of its name. -/
theorem Registry.builtin_function (name : String) :
    Registry.builtin.function name =
      (PathFunction.named? name).elim (.error (.unsupported (.function name)))
        fun f => .ok f.apply := by
  have hget : Registry.builtin.functions.get? name =
      (PathFunction.named? name).map PathFunction.apply :=
    Table.get?_insertAll_map PathFunction.apply PathFunction.builtins (fun _ => rfl) name
  rw [Registry.function, hget]
  cases PathFunction.named? name <;> rfl

theorem PathFunction.apply_ok {f : PathFunction} {name : String} {args : List Expr} {e : Expr}
    (h : f.apply name args = .ok e) : e = .call f.builtin args := by
  unfold PathFunction.apply at h
  split at h
  · cases h
    rfl
  · cases h

theorem Registry.builtin_function_ok {name : String} {f : FunctionRule}
    (h : Registry.builtin.function name = .ok f) :
    ∃ g, PathFunction.named? name = some g ∧ f = g.apply := by
  rw [Registry.builtin_function] at h
  cases hg : PathFunction.named? name with
  | none =>
    rw [hg] at h
    cases h
  | some g =>
    rw [hg] at h
    exact ⟨g, rfl, (Except.ok.inj h).symm⟩

/-- A call under the built-in registry is one of a function of the store, with the same values. -/
theorem Registry.exists_call {name : String} {f : FunctionRule} {args : List Expr} {e : Expr}
    (hf : Registry.builtin.function name = .ok f) (he : f name args = .ok e) :
    ∃ b, e = .call b args := by
  obtain ⟨g, -, rfl⟩ := Registry.builtin_function_ok hf
  exact ⟨g.builtin, PathFunction.apply_ok he⟩

namespace Emit

variable {α β : Type}

theorem bind_ok {m : Emit α} {f : α → Emit β} {a : Allocator} {em : Emission β}
    (h : (m >>= f) a = .ok em) :
    ∃ first second, m a = .ok first ∧ f first.value first.allocator = .ok second ∧
      em = ⟨second.value, first.elements ++ second.elements, second.allocator⟩ := by
  change andThen m f a = .ok em at h
  unfold andThen at h
  split at h
  · cases h
  · next first hfirst =>
    split at h
    · cases h
    · next second hsecond =>
      cases h
      exact ⟨first, second, hfirst, hsecond, rfl⟩

theorem bind_eq_ok {m : Emit α} {f : α → Emit β} {a : Allocator} {first : Emission α}
    {second : Emission β} (hfirst : m a = .ok first)
    (hsecond : f first.value first.allocator = .ok second) :
    (m >>= f) a = .ok ⟨second.value, first.elements ++ second.elements, second.allocator⟩ := by
  change andThen m f a = _
  simp only [andThen, hfirst, hsecond]

theorem bind_apply (m : Emit α) (f : α → Emit β) (a : Allocator) :
    (m >>= f) a = andThen m f a := rfl

theorem fresh_apply (a : Allocator) : fresh a = .ok ⟨a.fresh.1, [], a.fresh.2⟩ := rfl

theorem fresh_ok {a : Allocator} {em : Emission Variable} (h : fresh a = .ok em) :
    em = ⟨a.fresh.1, [], a.fresh.2⟩ := by
  rw [fresh_apply] at h
  exact (Except.ok.inj h).symm

theorem ofExcept_bind_ok {x : Except CompileError α} {f : α → Emit β} {a : Allocator}
    {em : Emission β} (h : (ofExcept x >>= f) a = .ok em) :
    ∃ value, x = .ok value ∧ f value a = .ok em := by
  cases x with
  | error e => cases h
  | ok value =>
    refine ⟨value, rfl, ?_⟩
    change andThen (done value) f a = .ok em at h
    rwa [done_andThen] at h

/-- Steps that succeed one after the other, each from the allocator that the one before left. -/
inductive Runs : List (Emit α) → Allocator → List (Emission α) → Allocator → Prop
  | nil (a : Allocator) : Runs [] a [] a
  | cons {m : Emit α} {ms : List (Emit α)} {a a' : Allocator} {em : Emission α}
      {ems : List (Emission α)} (head : m a = .ok em) (tail : Runs ms em.allocator ems a') :
      Runs (m :: ms) a (em :: ems) a'

theorem inOrder_ok {ms : List (Emit α)} {a : Allocator} {em : Emission (List α)}
    (h : inOrder ms a = .ok em) :
    ∃ ems, Runs ms a ems em.allocator ∧ em.value = ems.map Emission.value ∧
      em.elements = (ems.map Emission.elements).flatten := by
  induction ms generalizing a em with
  | nil =>
    cases h
    exact ⟨[], .nil a, rfl, rfl⟩
  | cons m ms ih =>
    obtain ⟨first, second, hfirst, hsecond, rfl⟩ := bind_ok h
    obtain ⟨more, rest, hmore, hrest, rfl⟩ := bind_ok hsecond
    cases hrest
    obtain ⟨ems, hruns, hvalue, helements⟩ := ih hmore
    exact ⟨first :: ems, .cons hfirst hruns, by simp [hvalue], by simp [helements]⟩

theorem captured_ok {m : Emit α} {a : Allocator} {em : Emission (α × Group)}
    (h : captured m a = .ok em) :
    ∃ inner, m a = .ok inner ∧ em = ⟨(inner.value, inner.elements), [], inner.allocator⟩ := by
  unfold captured at h
  split at h
  · cases h
  · next inner hinner =>
    cases h
    exact ⟨inner, hinner, rfl⟩

private theorem Runs.of_captured {ms : List (Emit α)} {a a' : Allocator}
    {ems : List (Emission (α × Group))} (h : Runs (ms.map captured) a ems a') :
    ∃ inner, Runs ms a inner a' ∧
      ems = inner.map fun em => ⟨(em.value, em.elements), [], em.allocator⟩ := by
  induction ms generalizing a ems with
  | nil =>
    cases h
    exact ⟨[], .nil _, rfl⟩
  | cons m ms ih =>
    obtain _ | ⟨hhead, htail⟩ := h
    obtain ⟨em, hem, rfl⟩ := captured_ok hhead
    obtain ⟨inner, hinner, rfl⟩ := ih htail
    exact ⟨em :: inner, .cons hem hinner, rfl⟩

end Emit

namespace Compile

open Emit

/-- The alternatives that match every resource, with the next four fresh variables. -/
def anyResource (context : Variable) (a : Allocator) : Element :=
  .union
    [[.ofTriple (.var context) (.var a.fresh.1) (.var a.fresh.2.fresh.1)],
     [.ofTriple (.var a.fresh.2.fresh.2.fresh.1) (.var a.fresh.2.fresh.2.fresh.2.fresh.1)
       (.var context)]]

/-- What closes a branch with the given value, and the allocator after it. -/
def closing (context output value : Variable) (a : Allocator) : Group × Allocator :=
  if value = context then
    ([anyResource context a, .bind (.var value) output], a.fresh.2.fresh.2.fresh.2.fresh.2)
  else ([.bind (.var value) output], a)

/-- The branches closed one after the other. -/
def closings (context output : Variable) : List (Emission Variable) → Allocator →
    List Group × Allocator
  | [], a => ([], a)
  | em :: rest, a =>
    let (tail, a') := closing context output em.value a
    let (groups, a'') := closings context output rest a'
    ((em.elements ++ tail) :: groups, a'')

theorem writeAnyResource_apply (context : Variable) (a : Allocator) :
    writeAnyResource context a =
      .ok ⟨(), [anyResource context a], a.fresh.2.fresh.2.fresh.2.fresh.2⟩ := by
  simp only [writeAnyResource, bind_apply, andThen, fresh_apply, write, List.nil_append,
    anyResource]

theorem closeBranch_apply (context output value : Variable) (g : Group) (a : Allocator) :
    closeBranch context output (value, g) a =
      .ok ⟨g ++ (closing context output value a).1, [], (closing context output value a).2⟩ := by
  by_cases h : value = context
  · subst h
    simp only [closeBranch, closing, if_true, captured, bind_apply, andThen,
      writeAnyResource_apply, write, pure, done, List.cons_append, List.nil_append]
  · simp only [closeBranch, closing, if_neg h, captured, bind_apply, andThen, write, pure, done,
      List.nil_append]

theorem inOrder_closeBranch (context output : Variable) (ems : List (Emission Variable))
    (a : Allocator) :
    inOrder (ems.map fun em => closeBranch context output (em.value, em.elements)) a =
      .ok ⟨(closings context output ems a).1, [], (closings context output ems a).2⟩ := by
  induction ems generalizing a with
  | nil => rfl
  | cons em rest ih =>
    simp only [List.map_cons, inOrder, bind_apply, andThen, closeBranch_apply, ih, pure, done,
      closings, List.nil_append]

/-- Compiled alternatives: the branches compiled in turn, an output, and the branches closed. -/
theorem alternatives_ok {context : Variable} {branches : List (Emit Variable)} {a : Allocator}
    {em : Emission Variable} (h : alternatives context branches a = .ok em) :
    ∃ ems a', Runs branches a ems a' ∧
      em = ⟨a'.fresh.1, [.union (closings context a'.fresh.1 ems a'.fresh.2).1],
        (closings context a'.fresh.1 ems a'.fresh.2).2⟩ := by
  obtain ⟨compiled, rest, hcompiled, hrest, rfl⟩ := bind_ok h
  obtain ⟨captures, hcaptures, hvalue, helements⟩ := inOrder_ok hcompiled
  obtain ⟨ems, hruns, rfl⟩ := hcaptures.of_captured
  refine ⟨ems, compiled.allocator, hruns, ?_⟩
  have hnil : compiled.elements = [] := by
    rw [helements]
    simp
  obtain ⟨output, rest', houtput, hrest', rfl⟩ := bind_ok hrest
  obtain rfl := fresh_ok houtput
  obtain ⟨groups, last, hgroups, hlast, rfl⟩ := bind_ok hrest'
  have hmap : compiled.value.map (closeBranch context compiled.allocator.fresh.1) =
      ems.map fun em => closeBranch context compiled.allocator.fresh.1 (em.value, em.elements) := by
    simp [hvalue]
  rw [hmap, inOrder_closeBranch] at hgroups
  obtain rfl := Except.ok.inj hgroups
  obtain ⟨written, last', hwritten, hlast', rfl⟩ := bind_ok hlast
  cases hwritten
  cases hlast'
  simp [hnil]

theorem alongProperty_apply (p : Iri) (context : Variable) (a : Allocator) :
    alongProperty p context a = .ok ⟨a.fresh.1,
      [.ofTriple (.var context) (.iri p) (.var a.fresh.1)], a.fresh.2⟩ := by
  simp only [alongProperty, bind_apply, andThen, fresh_apply, writeTriple, write, pure, done,
    List.nil_append, List.append_nil]

theorem againstProperty_apply (p : Iri) (context : Variable) (a : Allocator) :
    againstProperty p context a = .ok ⟨a.fresh.1,
      [.ofTriple (.var a.fresh.1) (.iri p) (.var context)], a.fresh.2⟩ := by
  simp only [againstProperty, bind_apply, andThen, fresh_apply, writeTriple, write, pure, done,
    List.nil_append, List.append_nil]

theorem alongAny_apply (context : Variable) (a : Allocator) :
    alongAny context a = .ok ⟨a.fresh.2.fresh.1,
      [.ofTriple (.var context) (.var a.fresh.1) (.var a.fresh.2.fresh.1)],
      a.fresh.2.fresh.2⟩ := by
  simp only [alongAny, bind_apply, andThen, fresh_apply, writeTriple, write, pure, done,
    List.nil_append, List.append_nil]

theorem bindFresh_apply (e : Expr) (a : Allocator) :
    bindFresh e a = .ok ⟨a.fresh.1, [.bind e a.fresh.1], a.fresh.2⟩ := by
  simp only [bindFresh, bind_apply, andThen, fresh_apply, write, pure, done, List.nil_append,
    List.append_nil]

theorem require_apply (e : Expr) (a : Allocator) :
    require e a = .ok ⟨(), if e.isAlways then [] else [.filter e], a⟩ := by
  unfold require
  split <;> rfl

theorem requireSame_apply (left right : Variable) (a : Allocator) :
    requireSame left right a = .ok ⟨(),
      if left = right then [] else [.filter (.equals (.var left) (.var right))], a⟩ := by
  unfold requireSame
  split <;> rfl

/-- The filter that a condition needs. -/
def filterOf (e : Expr) : Group := if e.isAlways then [] else [.filter e]

/-- What a condition compiled in a scope of its own leaves. -/
theorem enclosed_ok {m : Emit Expr} {a : Allocator} {em : Emission Expr}
    (h : enclosed m a = .ok em) : ∃ inner, m a = .ok inner ∧ em.elements = [] ∧
      em.allocator = inner.allocator ∧ (inner.elements = [] ∧ em.value = inner.value ∨
        inner.elements ≠ [] ∧ em.value = .exist (inner.elements ++ filterOf inner.value)) := by
  obtain ⟨first, second, hfirst, hsecond, rfl⟩ := bind_ok h
  obtain ⟨inner, hinner, rfl⟩ := captured_ok hfirst
  refine ⟨inner, hinner, ?_⟩
  dsimp only at hsecond
  split at hsecond
  · next hempty =>
    cases hsecond
    exact ⟨rfl, rfl, .inl ⟨List.isEmpty_iff.1 hempty, rfl⟩⟩
  · next hempty =>
    cases hsecond
    refine ⟨rfl, rfl, .inr ⟨fun hnil => hempty (List.isEmpty_iff.2 hnil), ?_⟩⟩
    unfold filterOf
    split <;> simp

section

variable {limits : RecursionLimits} {min : Nat} {max : Option Nat}

theorem unrollingBound_of_inverted {m : Nat} (h : m < min) :
    unrollingBound limits min (some m) = .error (.invertedBounds min m) := if_pos h

theorem unrollingBound_of_strict (h : limits.strict = true) :
    unrollingBound limits min none = .error (.recursionLimit min limits.maxDepth) := if_pos h

theorem unrollingBound_of_ordered (hordered : ∀ m ∈ max, min ≤ m)
    (hbounded : ¬ (max = none ∧ limits.strict = true)) :
    unrollingBound limits min max =
      withinLimits limits min (max.getD (Nat.max limits.maxDepth min)) := by
  cases max with
  | none => exact if_neg fun hstrict => hbounded ⟨rfl, hstrict⟩
  | some m => exact if_neg (Nat.not_lt.2 (hordered m rfl))

end

private theorem withinLimits_ok {limits : RecursionLimits} {min b bound : Nat}
    (h : withinLimits limits min b = .ok bound) : b = bound := by
  unfold withinLimits at h
  split at h
  · cases h
  · split at h
    · cases h
    · exact Except.ok.inj h

theorem unrollingBound_ok {limits : RecursionLimits} {min : Nat} {max : Option Nat} {bound : Nat}
    (h : unrollingBound limits min max = .ok bound) :
    min ≤ bound ∧ bound = max.getD (Nat.max limits.maxDepth min) := by
  unfold unrollingBound at h
  cases max with
  | none =>
    dsimp only at h
    split at h
    · cases h
    · rw [← withinLimits_ok h]
      exact ⟨Nat.le_max_right _ _, rfl⟩
  | some max =>
    dsimp only at h
    split at h
    · cases h
    · next hle =>
      rw [← withinLimits_ok h]
      exact ⟨Nat.le_of_not_lt hle, rfl⟩

@[simp]
theorem governed_selectorRule {α : Type} (k : SelectorKind) (f : SelectorRule → Emit α)
    (m : Emit α) : governed (Registry.builtin.selectorRule k) f m = m := rfl

@[simp]
theorem governed_testRule {α : Type} (k : TestKind) (f : TestRule → Emit α) (m : Emit α) :
    governed (Registry.builtin.testRule k) f m = m := rfl

/-- A tested selector: the delegate, the test of its value, and the condition of the test. -/
theorem testing_ok {limits : RecursionLimits} {delegate : Selector} {t : Test} {context : Variable}
    {a : Allocator} {em : Emission Variable}
    (h : selector .builtin limits (.testing delegate t) context a = .ok em) :
    ∃ first inner, selector .builtin limits delegate context a = .ok first ∧
      test .builtin limits t first.value first.allocator = .ok inner ∧
      em = ⟨context, first.elements ++ (inner.elements ++ filterOf inner.value),
        inner.allocator⟩ := by
  rw [selector, governed_selectorRule] at h
  obtain ⟨first, rest, hfirst, hrest, rfl⟩ := bind_ok h
  obtain ⟨inner, rest', hinner, hrest', rfl⟩ := bind_ok hrest
  obtain ⟨required, last, hrequired, hlast, rfl⟩ := bind_ok hrest'
  cases hlast
  rw [require_apply, ← filterOf] at hrequired
  cases hrequired
  exact ⟨first, inner, hfirst, hinner, by simp⟩

end Compile

end GraphPath
