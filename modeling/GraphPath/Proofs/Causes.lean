import GraphPath.Proofs.Faults
import GraphPath.Proofs.TextInput

/-!
# Why paths fail to compile

An error of compilation is the fault of one node of the tree: of a call, whose function is unknown
or does not take that many arguments, or of a repetition, whose bounds are inverted or go too far,
or which has more depths than memory has room for. A path that was read from text has no inverted
bounds. So as long as there is room the user is told about a function or about the limit on
repetitions, and about nothing else; and a path whose calls and repetitions are within bounds
compiles.
-/

namespace GraphPath

/-- The depth that a repetition asks for: its upper bound, or else the configured depth, but not
less than its lower bound. -/
def RecursionLimits.depth (limits : RecursionLimits) (min : Nat) (max : Option Nat) : Nat :=
  max.getD (Nat.max limits.maxDepth min)

/-- How many depths a repetition is unrolled to. -/
def RecursionLimits.depths (limits : RecursionLimits) (min : Nat) (max : Option Nat) : Nat :=
  limits.depth min max - min + 1

/-- A repetition that goes no deeper than the limits allow, and that says how deep it goes where
they ask for that. -/
structure RecursionLimits.Admit (limits : RecursionLimits) (min : Nat) (max : Option Nat) :
    Prop where
  stated : limits.strict = true → max.isSome = true
  shallow : limits.depth min max ≤ limits.maxExplicitDepth
  countable : limits.depth min max < Parser.wordLimit - 1

/-- The error is the fault of the node itself. -/
inductive Part.Causes (limits : RecursionLimits) : Part → CompileError → Prop
  | unknown {name : String} {args : List Selector}
      (unknown : name ∉ PathFunction.builtins.map Prod.fst) :
      Causes limits (.selector (.function name args)) (.unsupported (.function name))
  | arity {name : String} {f : PathFunction} {args : List Selector}
      (known : (name, f) ∈ PathFunction.builtins)
      (refused : f.arity.accepts args.length = false) :
      Causes limits (.selector (.function name args)) (.arity name f.arity args.length)
  | inverted {inner : Selector} {min max : Nat} (inverted : max < min) :
      Causes limits (.selector (.recursive inner min (some max))) (.invertedBounds min max)
  | depth {inner : Selector} {min : Nat} {max : Option Nat} (bound : Nat)
      (refused : ¬ limits.Admit min max) :
      Causes limits (.selector (.recursive inner min max)) (.recursionLimit min bound)
  | room {inner : Selector} {min : Nat} {max : Option Nat}
      (crowded : Compile.branchLimit < limits.depths min max) :
      Causes limits (.selector (.recursive inner min max)) (.noRoom (limits.depths min max))

/-- What is asked of a node for a path to compile: a call is one of a known function with a number
of arguments that it takes, and a repetition is within the limits and leaves room. -/
def Part.Compilable (limits : RecursionLimits) : Part → Prop
  | .selector (.function name args) =>
    ∃ f, (name, f) ∈ PathFunction.builtins ∧ f.arity.accepts args.length = true
  | .selector (.recursive _ min max) =>
    limits.Admit min max ∧ limits.depths min max ≤ Compile.branchLimit
  | _ => True

/-! ## The fault of a node -/

private theorem PathFunction.named?_eq_some_iff {name : String} {f : PathFunction} :
    named? name = some f ↔ (name, f) ∈ builtins := by
  simp only [named?, Table.insertAll, builtins, List.foldl_cons, List.foldl_nil, Table.get?_insert,
    Table.get?_empty, List.mem_cons, Prod.mk.injEq, List.not_mem_nil, or_false]
  grind

private theorem PathFunction.not_mem_of_named?_eq_none {name : String} (h : named? name = none) :
    name ∉ builtins.map Prod.fst := by
  intro hmem
  obtain ⟨entry, hentry, rfl⟩ := List.mem_map.1 hmem
  rw [named?_eq_some_iff.2 hentry] at h
  cases h

private theorem Compile.withinLimits_eq_error {limits : RecursionLimits} {min : Nat}
    {max : Option Nat} {e : CompileError}
    (h : withinLimits limits min (limits.depth min max) = .error e) :
    (¬ limits.Admit min max ∧ ∃ bound, e = .recursionLimit min bound) ∨
      branchLimit < limits.depths min max ∧ e = .noRoom (limits.depths min max) := by
  unfold withinLimits at h
  split at h
  · next hbeyond =>
    refine .inl ⟨fun hadmit => ?_, _, (Except.error.inj h).symm⟩
    have hshallow := hadmit.shallow
    have hcountable := hadmit.countable
    omega
  · split at h
    · next hcrowded => exact .inr ⟨hcrowded, (Except.error.inj h).symm⟩
    · cases h

private theorem Compile.unrollingBound_eq_error {limits : RecursionLimits} {min : Nat}
    {max : Option Nat} {e : CompileError} (h : unrollingBound limits min max = .error e) :
    (∃ m, max = some m ∧ m < min ∧ e = .invertedBounds min m) ∨
      (¬ limits.Admit min max ∧ ∃ bound, e = .recursionLimit min bound) ∨
      branchLimit < limits.depths min max ∧ e = .noRoom (limits.depths min max) := by
  by_cases hunbounded : max = none ∧ limits.strict = true
  · obtain ⟨rfl, hstrict⟩ := hunbounded
    rw [unrollingBound_of_strict hstrict] at h
    refine .inr (.inl ⟨fun hadmit => ?_, _, (Except.error.inj h).symm⟩)
    cases hadmit.stated hstrict
  · by_cases hordered : ∀ m ∈ max, min ≤ m
    · rw [unrollingBound_of_ordered hordered hunbounded] at h
      exact .inr (withinLimits_eq_error h)
    · simp only [Classical.not_forall, Nat.not_le] at hordered
      obtain ⟨m, rfl, hlt⟩ := hordered
      rw [unrollingBound_of_inverted hlt] at h
      exact .inl ⟨m, rfl, hlt, (Except.error.inj h).symm⟩

/-! ## The fault of a tree -/

namespace Part

/-- The error with which the node fails to compile, if it does. -/
def fault? (limits : RecursionLimits) : Part → Option CompileError
  | .selector s => s.fault? limits
  | .test t => t.fault? limits

private theorem sizeOf_lt_of_mem_children {x y : Part} (h : y ∈ x.children) :
    sizeOf y < sizeOf x := by
  cases x with
  | selector s =>
    cases s <;> simp only [children, List.mem_cons, List.mem_map, List.not_mem_nil, or_false] at h
    case function name args =>
      obtain ⟨s, hmem, rfl⟩ := h
      have hlt := List.sizeOf_lt_of_mem hmem
      simp only [Part.selector.sizeOf_spec, Selector.function.sizeOf_spec]
      omega
    all_goals rcases h with rfl | rfl <;> simp <;> omega
  | test t =>
    cases t <;> simp only [children, List.mem_cons, List.not_mem_nil, or_false] at h
    all_goals rcases h with rfl | rfl <;> simp <;> omega

end Part

variable {limits : RecursionLimits} {e : CompileError}

private theorem Selector.exists_of_firstFault? {args : List Selector}
    (h : Selector.firstFault? limits args = some e) : ∃ s ∈ args, s.fault? limits = some e := by
  induction args with
  | nil => cases h
  | cons s rest ih =>
    rcases Option.or_eq_some_iff.1 h with h | ⟨-, h⟩
    · exact ⟨s, .head rest, h⟩
    · obtain ⟨s', hmem, hs'⟩ := ih h
      exact ⟨s', .tail s hmem, hs'⟩

namespace Part

private theorem exists_of_pair {x y : Part} (h : (x.fault? limits).or (y.fault? limits) = some e) :
    ∃ z ∈ [x, y], z.fault? limits = some e := by
  rcases Option.or_eq_some_iff.1 h with h | ⟨-, h⟩
  · exact ⟨x, by simp, h⟩
  · exact ⟨y, by simp, h⟩

/-- A node that fails is at fault itself, or has a child that fails with the same error. -/
theorem causes_or_child {x : Part} (h : x.fault? limits = some e) :
    x.Causes limits e ∨ ∃ y ∈ x.children, y.fault? limits = some e := by
  cases x with
  | selector s =>
    cases s with
    | path left right => exact .inr (exists_of_pair h)
    | union left right => exact .inr (exists_of_pair h)
    | intersection left right => exact .inr (exists_of_pair h)
    | recursive inner min max =>
      simp only [fault?, Selector.fault?] at h
      split at h
      · next e' herror =>
        cases h
        rcases Compile.unrollingBound_eq_error herror with ⟨m, rfl, hlt, rfl⟩ |
          ⟨hrefused, b, rfl⟩ | ⟨hcrowded, rfl⟩
        · exact .inl (.inverted hlt)
        · exact .inl (.depth b hrefused)
        · exact .inl (.room hcrowded)
      · split at h
        · cases h
        · exact .inr ⟨.selector inner, List.mem_singleton.2 rfl, h⟩
    | grouping inner => exact .inr ⟨.selector inner, List.mem_singleton.2 rfl, h⟩
    | testing delegate t => exact .inr (exists_of_pair h)
    | function name args =>
      simp only [fault?, Selector.fault?] at h
      split at h
      · next hnone =>
        cases h
        exact .inl (.unknown (PathFunction.not_mem_of_named?_eq_none hnone))
      · next f hf =>
        rcases Option.or_eq_some_iff.1 h with h | ⟨-, h⟩
        · obtain ⟨s, hmem, hs⟩ := Selector.exists_of_firstFault? h
          exact .inr ⟨.selector s, List.mem_map_of_mem hmem, hs⟩
        · split at h
          · cases h
          · next hrefused =>
            cases h
            exact .inl (.arity (PathFunction.named?_eq_some_iff.1 hf) (by simpa using hrefused))
    | _ => cases h
  | test t =>
    cases t with
    | isA type => exact .inr ⟨.selector type, List.mem_singleton.2 rfl, h⟩
    | and left right => exact .inr (exists_of_pair h)
    | or left right => exact .inr (exists_of_pair h)
    | not inner => exact .inr ⟨.test inner, List.mem_singleton.2 rfl, h⟩
    | comparison op left right => exact .inr (exists_of_pair h)
    | pathEquality left right => exact .inr (exists_of_pair h)
    | pathExists path => exact .inr ⟨.selector path, List.mem_singleton.2 rfl, h⟩
    | _ => cases h

/-- Every error of compilation is the fault of some node of the tree. -/
theorem exists_cause (x : Part) (h : x.fault? limits = some e) :
    ∃ y, x.Contains y ∧ y.Causes limits e := by
  rcases causes_or_child h with hcauses | ⟨y, hmem, hy⟩
  · exact ⟨x, .self x, hcauses⟩
  · have hsmaller := sizeOf_lt_of_mem_children hmem
    obtain ⟨z, hbelow, hz⟩ := exists_cause y hy
    exact ⟨z, .child hmem hbelow, hz⟩
termination_by sizeOf x

/-- A node that asks for nothing unusual is at fault only for inverted bounds. -/
theorem Compilable.inverted_of_causes {x : Part} (hx : x.Compilable limits)
    (h : x.Causes limits e) :
    ∃ inner min max, x = .selector (.recursive inner min (some max)) ∧ max < min := by
  cases h with
  | unknown hunknown =>
    obtain ⟨f, hf, -⟩ := hx
    exact absurd (List.mem_map_of_mem hf) hunknown
  | arity hknown hrefused =>
    obtain ⟨f', hf', haccepts⟩ := hx
    have hsame := (PathFunction.named?_eq_some_iff.2 hknown).symm.trans
      (PathFunction.named?_eq_some_iff.2 hf')
    rw [← Option.some.inj hsame, hrefused] at haccepts
    cases haccepts
  | inverted hlt => exact ⟨_, _, _, rfl, hlt⟩
  | depth bound hrefused => exact absurd hx.1 hrefused
  | room hcrowded => exact absurd hcrowded (Nat.not_lt.2 hx.2)

end Part

/-- A path that was read from text fails to compile only for a call of an unknown function, for a
call with a number of arguments that the function does not take, for a repetition beyond the limits,
or for one with more depths than memory has room for. Without such calls and repetitions it
compiles. -/
theorem Selector.parsed_compiles {v : Vocabulary} {input : String} {s : Selector}
    (hs : Selector.parse v input = .ok s) (limits : RecursionLimits) (context : Variable)
    (a : Allocator) :
    (∀ e, Compile.selector .builtin limits s context a = .error e →
      (∃ name args, (Part.selector s).Contains (.selector (.function name args)) ∧
        name ∉ PathFunction.builtins.map Prod.fst ∧ e = .unsupported (.function name)) ∨
      (∃ name f args, (Part.selector s).Contains (.selector (.function name args)) ∧
        (name, f) ∈ PathFunction.builtins ∧ f.arity.accepts args.length = false ∧
        e = .arity name f.arity args.length) ∨
      (∃ inner min max bound, (Part.selector s).Contains (.selector (.recursive inner min max)) ∧
        ¬ limits.Admit min max ∧ e = .recursionLimit min bound) ∨
      ∃ inner min max, (Part.selector s).Contains (.selector (.recursive inner min max)) ∧
        Compile.branchLimit < limits.depths min max ∧ e = .noRoom (limits.depths min max)) ∧
    ((∀ x, (Part.selector s).Contains x → x.Compilable limits) →
      ∃ em, Compile.selector .builtin limits s context a = .ok em) := by
  have hfault := Compile.faultIs_selector limits s context
  have hroot : (Part.selector s).Admitted := .inl (Selector.wellFormed_of_parse hs)
  have hproper : ∀ x, (Part.selector s).Contains x → x.Proper := fun x hx =>
    (hroot.contained hx).proper
  constructor
  · intro e herror
    obtain ⟨x, hx, hcauses⟩ := Part.exists_cause (.selector s) ((hfault.error_iff a e).1 herror)
    have hordered := hproper x hx
    cases hcauses with
    | unknown hunknown => exact .inl ⟨_, _, hx, hunknown, rfl⟩
    | arity hknown hrefused => exact .inr (.inl ⟨_, _, _, hx, hknown, hrefused, rfl⟩)
    | inverted hlt => exact absurd hlt (Nat.not_lt.2 (hordered _ rfl))
    | depth bound hrefused => exact .inr (.inr (.inl ⟨_, _, _, bound, hx, hrefused, rfl⟩))
    | room hcrowded => exact .inr (.inr (.inr ⟨_, _, _, hx, hcrowded, rfl⟩))
  · intro hcompilable
    rw [hfault.ok_iff a]
    cases hnone : s.fault? limits with
    | none => rfl
    | some e =>
      obtain ⟨x, hx, hcauses⟩ := Part.exists_cause (.selector s) hnone
      have hordered := hproper x hx
      obtain ⟨inner, min, max, rfl, hlt⟩ := (hcompilable x hx).inverted_of_causes hcauses
      exact absurd hlt (Nat.not_lt.2 (hordered max rfl))

/-- A call with one argument too many below a repetition, and the same path with the number of
arguments that the function takes. -/
theorem Selector.parsed_compiles_repeated_call :
    let v := Vocabulary.common.insert "e" "http://e/"
    let inner : Selector := .property ⟨"http://e/p"⟩
    let refused : Selector := .recursive (.function "str" [inner, .self]) 1 (some 3)
    let taken : Selector := .recursive (.function "str" [inner]) 1 (some 3)
    let compiled (s : Selector) := Compile.selector .builtin {} s ⟨"x"⟩ (.ofSettings {})
    Selector.parse v "(fn:str(e:p, .))\x7b1,3\x7d" = .ok refused ∧
    (∃ e, compiled refused = .error e ∧
      ∃ name f args, (Part.selector refused).Contains (.selector (.function name args)) ∧
        (name, f) ∈ PathFunction.builtins ∧ f.arity.accepts args.length = false ∧
        e = .arity name f.arity args.length) ∧
    Selector.parse v "(fn:str(e:p))\x7b1,3\x7d" = .ok taken ∧
    (∀ x, (Part.selector taken).Contains x → x.Compilable {}) ∧
    ∃ em, compiled taken = .ok em := by
  intro v inner refused taken compiled
  have hrefused : Selector.parse v "(fn:str(e:p, .))\x7b1,3\x7d" = .ok refused := by
    decide +kernel
  have htaken : Selector.parse v "(fn:str(e:p))\x7b1,3\x7d" = .ok taken := by decide +kernel
  have herror : (compiled refused).map (fun _ => ()) = .error (.arity "str" ⟨1, some 1⟩ 2) := by
    decide +kernel
  have hcompilable : ∀ x, (Part.selector taken).Contains x → x.Compilable {} := by
    have hproperty : ∀ x, (Part.selector inner).Contains x → x.Compilable {} := by
      intro x hx
      cases hx with
      | self => trivial
      | child mem => cases mem
    have hcall : ∀ x, (Part.selector (.function "str" [inner])).Contains x → x.Compilable {} := by
      intro x hx
      cases hx with
      | self => exact ⟨.exactly .str 1, by decide, rfl⟩
      | child mem below =>
        obtain rfl := List.mem_singleton.1 mem
        exact hproperty x below
    intro x hx
    cases hx with
    | self => exact ⟨⟨nofun, by decide, by decide⟩, by decide⟩
    | child mem below =>
      obtain rfl := List.mem_singleton.1 mem
      exact hcall x below
  refine ⟨hrefused, ?_, htaken, hcompilable,
    (Selector.parsed_compiles htaken {} ⟨"x"⟩ (.ofSettings {})).2 hcompilable⟩
  cases hcompiled : compiled refused with
  | ok em =>
    rw [hcompiled] at herror
    cases herror
  | error e =>
    rw [hcompiled] at herror
    cases herror
    have hcases := (Selector.parsed_compiles hrefused {} ⟨"x"⟩ (.ofSettings {})).1 _ hcompiled
    rcases hcases with ⟨name, args, -, -, hother⟩ | hcall |
      ⟨inner, min, max, bound, -, -, hother⟩ | ⟨inner, min, max, -, -, hother⟩
    · cases hother
    · exact ⟨_, rfl, hcall⟩
    · cases hother
    · cases hother

/-- Under the largest ceiling, a repetition with almost as many depths as there are machine words is
within the limits, and does not compile. Nobody is told that the function it repeats is unknown. -/
theorem Selector.parsed_without_room :
    let limits : RecursionLimits := { maxExplicitDepth := 0xffffffffffffffff }
    let repeated (inner : Selector) : Selector := .recursive inner 0 (some 0xfffffffffffffffe)
    let compiled (s : Selector) := Compile.selector .builtin limits s ⟨"x"⟩ (.ofSettings {})
    let property : Selector := .property ⟨"http://e/p"⟩
    let unknown : Selector := .function "nope" [.self]
    limits.Admit 0 (some 0xfffffffffffffffe) ∧
    Selector.parse .common "(<http://e/p>)\x7b0,18446744073709551614\x7d" =
      .ok (repeated property) ∧
    compiled (repeated property) = .error (.noRoom 0xffffffffffffffff) ∧
    Selector.parse .common "(fn:nope(.))\x7b0,18446744073709551614\x7d" = .ok (repeated unknown) ∧
    compiled (repeated unknown) = .error (.noRoom 0xffffffffffffffff) := by
  intro limits repeated compiled property unknown
  have hfault (inner : Selector) :
      (repeated inner).fault? limits = some (.noRoom 0xffffffffffffffff) := by
    have hbound : Compile.unrollingBound limits 0 (some 0xfffffffffffffffe) =
        .error (.noRoom 0xffffffffffffffff) := by decide +kernel
    rw [Selector.fault?, hbound]
  have hcompiled (inner : Selector) :
      compiled (repeated inner) = .error (.noRoom 0xffffffffffffffff) :=
    (Compile.faultIs_selector limits _ ⟨"x"⟩).fails _ _ (hfault inner)
  exact ⟨⟨nofun, by decide, by decide⟩, by decide +kernel, hcompiled property, by decide +kernel,
    hcompiled unknown⟩

end GraphPath
