import GraphPath.Proofs.Assembly
import Mathlib.Data.List.Basic

/-!
# Resolution of rules

Every node that is compiled is compiled by the rule that the registry has for its kind. What is
compiled of a tree: its root, and under a node with the built-in rule all its children, except the
constants that the node takes as operands and the step of a repetition that is never taken. What the
rule of an extension emits for a node goes, through the nodes above it, into what the tree emits.
-/

namespace GraphPath

namespace Part

open Compile Emit

/-- The nodes that use the values of their children as operands of an expression. -/
def takesOperands : Part → Bool
  | .selector (.function ..) => true
  | .test (.isA _) => true
  | .test (.comparison ..) => true
  | .test (.pathEquality ..) => true
  | _ => false

/-- The repetitions whose only depth is zero. -/
def isNeverTaken (limits : RecursionLimits) : Part → Bool
  | .selector (.recursive _ min max) => (unrollingBound limits min max).toOption = some 0
  | _ => false

/-- The rule that an extension has registered for the kind of the node. -/
def override? (r : Registry) : Part → Option (Variable → Emit Expr)
  | .selector s =>
    match r.selectors s.kind with
    | some (.extension _ rule) => some fun context => .var <$> rule s context
    | _ => none
  | .test t =>
    match r.tests t.kind with
    | some (.extension _ rule) => some (rule t)
    | _ => none

/-- Nothing is registered for the kind of the node, or for the name of the function that it calls.
-/
inductive IsMissing (r : Registry) : Part → Prop
  | selector {s : Selector} (none : r.selectors s.kind = none) : IsMissing r (.selector s)
  | test {t : Test} (none : r.tests t.kind = none) : IsMissing r (.test t)
  | function {name : String} {args : List Selector}
      (builtin : r.selectors .function = some .builtin) (none : r.functions.get? name = none) :
      IsMissing r (.selector (.function name args))

/-- The nodes that are compiled with a node: itself and what its built-in rule goes through. -/
inductive Reaches (r : Registry) (limits : RecursionLimits) : Part → Part → Prop
  | self (x : Part) : Reaches r limits x x
  | child {x y z : Part} (builtin : x.IsBuiltin r) (mem : y ∈ x.children)
      (computed : ¬ (x.takesOperands ∧ y.isConstant)) (taken : ¬ x.isNeverTaken limits)
      (below : Reaches r limits y z) : Reaches r limits x z

/-- The node compiles somewhere. -/
def Compiles (r : Registry) (limits : RecursionLimits) (x : Part) : Prop :=
  ∃ context a em, x.compile r limits context a = .ok em

end Part

/-- What a node emitted is put together from what other nodes emitted, at any depth. -/
inductive Call.Uses (r : Registry) (limits : RecursionLimits) : Call → Call → Prop
  | self (call : Call) : Uses r limits call call
  | child {call next last : Call} {calls : List Call} (builtin : call.node.IsBuiltin r)
      (assembles : Part.Assembles r limits call.context call.before call.node calls call.emission)
      (made : ∀ c ∈ calls, c.Made r limits) (mem : next ∈ calls) (rest : Uses r limits next last) :
      Uses r limits call last

private theorem Call.Uses.made {r : Registry} {limits : RecursionLimits} {call last : Call}
    (h : call.Uses r limits last) (hcall : call.Made r limits) : last.Made r limits := by
  induction h with
  | self call => exact hcall
  | child _ _ made mem _ ih => exact ih (made _ mem)

namespace Part

open Compile Emit

variable {r : Registry} {limits : RecursionLimits} {context : Variable} {a : Allocator}

/-! ## The children that are compiled -/

private theorem Each.exists_mem {ι β : Type} {one : ι → Allocator → List Call → Emission β → Prop}
    {is : List ι} {b : Allocator} {calls : List Call} {ems : List (Emission β)}
    (h : Each one is a calls ems b) {i : ι} (hi : i ∈ is) :
    ∃ a' calls' em, one i a' calls' em ∧ calls' ⊆ calls := by
  induction h with
  | nil a => cases hi
  | @cons j rest a b calls more em ems head tail ih =>
    obtain rfl | hi := List.mem_cons.1 hi
    · exact ⟨a, calls, em, head, List.subset_append_left calls more⟩
    · obtain ⟨a', calls', em', hone, hsubset⟩ := ih hi
      exact ⟨a', calls', em', hone, List.subset_append_of_subset_right calls hsubset⟩

private theorem Operand.exists_call {s : Selector} {calls : List Call} {em : Emission Expr}
    (h : Operand context s a calls em) (hs : ¬ (Part.selector s).isConstant) :
    ∃ call ∈ calls, call.node = .selector s := by
  cases h with
  | constant n => exact absurd rfl hs
  | computed => exact ⟨_, List.mem_singleton_self _, rfl⟩

private theorem Steps.exists_call {step : Selector} {n : Nat} {v : Variable} {calls : List Call}
    {em : Emission Variable} (h : Steps step n v a calls em) (hn : 0 < n) :
    ∃ call ∈ calls, call.node = .selector step := by
  cases h with
  | none => exact absurd hn (Nat.lt_irrefl 0)
  | more => exact ⟨_, List.mem_cons_self, rfl⟩

private theorem exists_call_of_operands {left right : Selector} {calls more : List Call}
    {first second : Emission Expr} {b : Allocator} (hleft : Operand context left a calls first)
    (hright : Operand context right b more second) {y : Part}
    (hmem : y ∈ [Part.selector left, .selector right]) (hy : ¬ y.isConstant) :
    ∃ call ∈ calls ++ more, call.node = y := by
  rcases List.mem_pair.1 hmem with rfl | rfl
  · obtain ⟨call, hcall, hnode⟩ := hleft.exists_call hy
    exact ⟨call, List.mem_append_left more hcall, hnode⟩
  · obtain ⟨call, hcall, hnode⟩ := hright.exists_call hy
    exact ⟨call, List.mem_append_right calls hcall, hnode⟩

private theorem exists_call_of_pair {c d : Call} {y : Part} (hmem : y ∈ [c.node, d.node]) :
    ∃ call ∈ [c, d], call.node = y := by
  rcases List.mem_pair.1 hmem with rfl | rfl
  · exact ⟨c, List.mem_cons_self, rfl⟩
  · exact ⟨d, List.mem_cons_of_mem c List.mem_cons_self, rfl⟩

/-- The built-in rule compiles the children, up to constant operands and steps never taken. -/
theorem Assembles.exists_call {x y : Part} {calls : List Call} {em : Emission Expr}
    (h : Assembles r limits context a x calls em) (hmem : y ∈ x.children)
    (hcomputed : ¬ (x.takesOperands ∧ y.isConstant)) (htaken : ¬ x.isNeverTaken limits) :
    ∃ call ∈ calls, call.node = y := by
  cases h with
  | leaf childless =>
    rw [childless] at hmem
    cases hmem
  | grouping =>
    obtain rfl := List.mem_singleton.1 hmem
    exact ⟨_, List.mem_singleton_self _, rfl⟩
  | path => exact exists_call_of_pair hmem
  | intersection => exact exists_call_of_pair hmem
  | testing => exact exists_call_of_pair hmem
  | @union left right calls ems b branches =>
    have hbranch (s : Selector) (hs : s ∈ [left, right]) :
        ∃ call ∈ calls, call.node = .selector s := by
      obtain ⟨a', calls', em', rfl, hsubset⟩ := branches.exists_mem hs
      exact ⟨_, hsubset (List.mem_singleton_self _), rfl⟩
    rcases List.mem_pair.1 hmem with rfl | rfl
    · exact hbranch left List.mem_cons_self
    · exact hbranch right (List.mem_cons_of_mem left List.mem_cons_self)
  | single bounded pos steps =>
    obtain rfl := List.mem_singleton.1 hmem
    exact steps.exists_call pos
  | @several inner min bound max calls ems b bounded _ depths =>
    have hpos : 0 < bound := by
      refine Nat.pos_of_ne_zero fun hzero => htaken ?_
      simp [isNeverTaken, bounded, hzero, Except.toOption]
    have hle := (unrollingBound_ok bounded).1
    -- the deepest of the alternatives takes the step
    have hdeepest : bound ∈ List.range' min (bound - min + 1) := by
      rw [List.mem_range'_1]
      omega
    obtain ⟨a', calls', em', hsteps, hsubset⟩ := depths.exists_mem hdeepest
    obtain ⟨call, hcall, hnode⟩ := hsteps.exists_call hpos
    obtain rfl := List.mem_singleton.1 hmem
    exact ⟨call, hsubset hcall, hnode⟩
  | function _ operands _ =>
    obtain ⟨s, hs, rfl⟩ := List.mem_map.1 hmem
    obtain ⟨a', calls', em', hoperand, hsubset⟩ := operands.exists_mem hs
    obtain ⟨call, hcall, hnode⟩ := hoperand.exists_call fun hconstant => hcomputed ⟨rfl, hconstant⟩
    exact ⟨call, hsubset hcall, hnode⟩
  | named =>
    obtain rfl := List.mem_singleton.1 hmem
    exact absurd ⟨rfl, rfl⟩ hcomputed
  | isA _ operand =>
    obtain rfl := List.mem_singleton.1 hmem
    exact operand.exists_call fun hconstant => hcomputed ⟨rfl, hconstant⟩
  | and => exact exists_call_of_pair hmem
  | or => exact exists_call_of_pair hmem
  | not =>
    obtain rfl := List.mem_singleton.1 hmem
    exact ⟨_, List.mem_singleton_self _, rfl⟩
  | comparison left right =>
    exact exists_call_of_operands left right hmem fun hconstant => hcomputed ⟨rfl, hconstant⟩
  | pathEquality left right =>
    exact exists_call_of_operands left right hmem fun hconstant => hcomputed ⟨rfl, hconstant⟩
  | pathExists =>
    obtain rfl := List.mem_singleton.1 hmem
    exact ⟨_, List.mem_singleton_self _, rfl⟩

/-- What is compiled with a node that compiles goes into what the node emits. -/
theorem Reaches.exists_uses {x y : Part} {em : Emission Expr} (h : Reaches r limits x y)
    (hx : x.compile r limits context a = .ok em) :
    ∃ call, call.node = y ∧ Call.Uses r limits ⟨x, context, a, em⟩ call := by
  induction h generalizing context a em with
  | self x => exact ⟨_, rfl, .self _⟩
  | child builtin mem computed taken _ ih =>
    obtain ⟨calls, hmade, hassembles⟩ := exists_assembles builtin hx
    obtain ⟨next, hnext, rfl⟩ := hassembles.exists_call mem computed taken
    obtain ⟨call, hnode, huses⟩ := ih (hmade next hnext)
    exact ⟨call, hnode, .child builtin hassembles hmade hnext huses⟩

/-! ## Rules -/

private theorem IsMissing.not_compiles {x : Part} (h : x.IsMissing r) : ¬ x.Compiles r limits := by
  rintro ⟨context, a, em, hx⟩
  cases h with
  | @selector s hnone =>
    obtain ⟨first, hfirst, -⟩ := compile_selector_ok hx
    rw [Compile.selector.eq_def, Registry.selectorRule, hnone] at hfirst
    cases hfirst
  | @test t hnone =>
    rw [compile, Compile.test.eq_def, Registry.testRule, hnone] at hx
    cases hx
  | @function name args hbuiltin hnone =>
    replace hbuiltin : r.selectors (Selector.function name args).kind = some .builtin := hbuiltin
    obtain ⟨first, hfirst, -⟩ := compile_selector_ok hx
    rw [Compile.selector.eq_def, governed_selector_of_builtin hbuiltin] at hfirst
    obtain ⟨f, hf, -⟩ := ofExcept_bind_ok hfirst
    cases hnone.symm.trans (Registry.function_eq_ok_iff.1 hf)

private theorem compile_of_override {x : Part} {rule : Variable → Emit Expr}
    (h : x.override? r = some rule) : x.compile r limits = rule := by
  cases x with
  | selector s =>
    unfold override? at h
    dsimp only at h
    split at h
    · next name f hf =>
      cases h
      funext context
      rw [compile, Compile.selector.eq_def, Registry.selectorRule, hf]
      rfl
    · cases h
  | test t =>
    unfold override? at h
    dsimp only at h
    split at h
    · next name f hf =>
      cases h
      funext context
      rw [compile, Compile.test.eq_def, Registry.testRule, hf]
      rfl
    · cases h

/-- Every node that is compiled is looked up. If nothing is registered for one of them then nothing
compiles. Where an extension is registered for its kind, its rule is what compiles the node: some
emission of the node goes into what the tree emits, and every one that does is the rule's own. -/
theorem compiled_by_registered_rules {x y : Part} (h : Reaches r limits x y) :
    (y.IsMissing r → ¬ x.Compiles r limits) ∧
    ∀ rule, y.override? r = some rule → y.compile r limits = rule ∧
      ∀ context a em, x.compile r limits context a = .ok em →
        let root : Call := ⟨x, context, a, em⟩
        (∃ call, root.Uses r limits call ∧ call.node = y) ∧
        ∀ call, root.Uses r limits call → call.node = y →
          rule call.context call.before = .ok call.emission := by
  constructor
  · rintro hmissing ⟨context, a, em, hx⟩
    obtain ⟨call, rfl, huses⟩ := h.exists_uses hx
    exact hmissing.not_compiles ⟨_, _, _, huses.made hx⟩
  · intro rule hrule
    have hcompile : y.compile r limits = rule := compile_of_override hrule
    refine ⟨hcompile, ?_⟩
    intro context a em hx root
    constructor
    · obtain ⟨call, hnode, huses⟩ := h.exists_uses hx
      exact ⟨call, huses, hnode⟩
    · rintro call huses rfl
      rw [← hcompile]
      exact huses.made hx

/-- A removed function below three nodes keeps the tree from compiling. With a function of its own
in its place the tree compiles, and the test for a language beside it is what its extension makes of
it: that a statement is stored. -/
theorem compiled_by_registered_rules_nested :
    let p : Iri := ⟨"http://e/p"⟩
    let limits : RecursionLimits := {}
    let rule : TestRule := fun _ context => do
      let v ← fresh
      writeTriple (.var context) (.iri p) (.var v)
      return .always
    let own : FunctionRule := fun _ _ => .ok .always
    let r := ((Registry.builtin.withoutFunction "lcase").registerFunction "own" own).registerTest
      .language "stated" rule
    let tree (name : String) : Part :=
      let call := Selector.function name [.property p]
      .selector (.grouping (.testing .self (.not
        (.and (.comparison .eq call (.constant (.literal (.plain "x")))) (.language "en")))))
    ¬ (tree "lcase").Compiles r limits ∧
    ∃ em, (tree "own").compile r limits ⟨"x"⟩ (.ofSettings {}) = .ok em ∧
      ∃ call, Call.Uses r limits ⟨tree "own", ⟨"x"⟩, .ofSettings {}, em⟩ call ∧
        call.node = .test (.language "en") ∧
        rule (.language "en") call.context call.before = .ok call.emission := by
  intro p limits rule own r tree
  have hand (name : String) {y : Part} (h : Reaches r limits (.test (.and (.comparison .eq
      (.function name [.property p]) (.constant (.literal (.plain "x")))) (.language "en"))) y) :
      Reaches r limits (tree name) y := by
    refine .child rfl List.mem_cons_self (by simp [takesOperands]) (by simp [isNeverTaken]) ?_
    refine .child rfl (List.mem_cons_of_mem _ List.mem_cons_self) (by simp [takesOperands])
      (by simp [isNeverTaken]) ?_
    exact .child rfl List.mem_cons_self (by simp [takesOperands]) (by simp [isNeverTaken]) h
  have hcall : Reaches r limits (tree "lcase") (.selector (.function "lcase" [.property p])) := by
    refine hand _ (.child rfl List.mem_cons_self (by decide) (by decide) ?_)
    exact .child rfl List.mem_cons_self (by decide) (by decide) (.self _)
  have hlanguage : Reaches r limits (tree "own") (.test (.language "en")) :=
    hand _ (.child rfl (List.mem_cons_of_mem _ List.mem_cons_self) (by decide) (by decide)
      (.self _))
  refine ⟨(compiled_by_registered_rules hcall).1 (.function rfl (by decide +kernel)), ?_⟩
  have hok : ((tree "own").compile r limits ⟨"x"⟩ (.ofSettings {})).isOk = true := by
    decide +kernel
  obtain ⟨em, hem⟩ := exists_ok_of_isOk hok
  obtain ⟨⟨call, huses, hnode⟩, hrule⟩ :=
    ((compiled_by_registered_rules hlanguage).2 (rule (.language "en")) rfl).2 _ _ em hem
  exact ⟨em, hem, call, huses, hnode, hrule call huses hnode⟩

private theorem compiles_of_isOk {x : Part} {context : Variable} {a : Allocator}
    (h : (x.compile r limits context a).isOk = true) : x.Compiles r limits := by
  obtain ⟨em, hem⟩ := exists_ok_of_isOk h
  exact ⟨context, a, em, hem⟩

/-- An unregistered node is passed over below a node of an extension, as a constant operand, and as
the step of a repetition that is never taken. -/
theorem unregistered_passed_over :
    let p : Iri := ⟨"http://e/p"⟩
    let limits : RecursionLimits := {}
    let extended := (Registry.builtin.registerSelector .path "context" fun _ context =>
      pure context).withoutSelector .reverse
    let lessConstant := Registry.builtin.withoutSelector .constant
    let lessReverse := Registry.builtin.withoutSelector .reverse
    let reverse := Part.selector (.reverse p)
    let constant := Part.selector (.constant (.literal (.plain "x")))
    let path := Part.selector (.path (.reverse p) .self)
    let comparison := Part.test (.comparison .eq (.property p) (.constant (.literal (.plain "x"))))
    let repetition := Part.selector (.recursive (.reverse p) 0 (some 0))
    (path.Contains reverse ∧ reverse.IsMissing extended ∧ path.Compiles extended limits) ∧
    (comparison.Contains constant ∧ constant.IsMissing lessConstant ∧
      comparison.Compiles lessConstant limits) ∧
    (repetition.Contains reverse ∧ reverse.IsMissing lessReverse ∧
      repetition.Compiles lessReverse limits) := by
  intro p limits extended lessConstant lessReverse reverse constant path comparison repetition
  have ha : (path.compile extended limits ⟨"x"⟩ (.ofSettings {})).isOk = true := by decide +kernel
  have hb : (comparison.compile lessConstant limits ⟨"x"⟩ (.ofSettings {})).isOk = true := by
    decide +kernel
  have hc : (repetition.compile lessReverse limits ⟨"x"⟩ (.ofSettings {})).isOk = true := by
    decide +kernel
  exact
    ⟨⟨.child List.mem_cons_self (.self _), .selector rfl, compiles_of_isOk ha⟩,
      ⟨.child (List.mem_cons_of_mem _ List.mem_cons_self) (.self _), .selector rfl,
        compiles_of_isOk hb⟩,
      .child List.mem_cons_self (.self _), .selector rfl, compiles_of_isOk hc⟩

end Part

end GraphPath
