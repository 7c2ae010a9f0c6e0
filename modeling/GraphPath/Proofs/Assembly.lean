import GraphPath.Proofs.Rules

/-!
# What nodes make of their children

The built-in rule of a node compiles the children of the node, one after the other, and puts what
they emit together. `Part.Assembles` says for each kind of node which children are compiled, from
which context and with which allocator, and what becomes of their emissions. It does not say how the
children are compiled: that is the matter of their own rules.
-/

namespace GraphPath

/-- A node of a path expression with what is below it. -/
inductive Part where
  | selector (s : Selector)
  | test (t : Test)
deriving DecidableEq

namespace Part

def children : Part → List Part
  | .selector (.path left right) => [.selector left, .selector right]
  | .selector (.union left right) => [.selector left, .selector right]
  | .selector (.intersection left right) => [.selector left, .selector right]
  | .selector (.recursive inner _ _) => [.selector inner]
  | .selector (.grouping inner) => [.selector inner]
  | .selector (.testing delegate t) => [.selector delegate, .test t]
  | .selector (.function _ args) => args.map .selector
  | .selector _ => []
  | .test (.isA type) => [.selector type]
  | .test (.and left right) => [.test left, .test right]
  | .test (.or left right) => [.test left, .test right]
  | .test (.not inner) => [.test inner]
  | .test (.comparison _ left right) => [.selector left, .selector right]
  | .test (.pathEquality left right) => [.selector left, .selector right]
  | .test (.pathExists path) => [.selector path]
  | .test (.language _) => []
  | .test (.datatype _) => []

/-- The node itself or one anywhere below it. -/
inductive Contains : Part → Part → Prop
  | self (x : Part) : Contains x x
  | child {x y z : Part} (mem : y ∈ x.children) (below : Contains y z) : Contains x z

def isConstant : Part → Bool
  | .selector (.constant _) => true
  | _ => false

/-- The node is left to the built-in rule of its kind. -/
def IsBuiltin (r : Registry) : Part → Prop
  | .selector s => r.selectors s.kind = some .builtin
  | .test t => r.tests t.kind = some .builtin

/-- Compiles a node to the value of the selector or to the condition of the test. -/
def compile (r : Registry) (limits : RecursionLimits) : Part → Variable → Emit Expr
  | .selector s, context => .var <$> Compile.selector r limits s context
  | .test t, context => Compile.test r limits t context

end Part

/-- The emission of a selector, with its variable as an expression. -/
def Emission.toExpr (em : Emission Variable) : Emission Expr :=
  ⟨.var em.value, em.elements, em.allocator⟩

/-- A node that was compiled, from which context and with which allocator, and what it emitted. -/
structure Call where
  node : Part
  context : Variable
  before : Allocator
  emission : Emission Expr

def Call.Made (r : Registry) (limits : RecursionLimits) (call : Call) : Prop :=
  call.node.compile r limits call.context call.before = .ok call.emission

namespace Compile

/-- Two values that are to be equal, unless they are one variable. -/
def sameOf (left right : Variable) : Group :=
  if left = right then [] else [.filter (.equals (.var left) (.var right))]

/-- A condition with what its test wrote as a scope of its own. -/
def asScope (em : Emission Expr) : Expr :=
  if em.elements.isEmpty then em.value else .exist (em.elements ++ filterOf em.value)

/-- The union of branches, after the last of them. -/
def unionOf (context : Variable) (branches : List (Emission Variable)) (a : Allocator) :
    Emission Variable :=
  ⟨a.fresh.1, [.union (closings context a.fresh.1 branches a.fresh.2).1],
    (closings context a.fresh.1 branches a.fresh.2).2⟩

end Compile

namespace Part

open Compile Emit

variable {ι β : Type}

/-- One after the other, each from the allocator that the one before left. -/
inductive Each (one : ι → Allocator → List Call → Emission β → Prop) :
    List ι → Allocator → List Call → List (Emission β) → Allocator → Prop
  | nil (a : Allocator) : Each one [] a [] [] a
  | cons {i : ι} {rest : List ι} {a b : Allocator} {calls more : List Call} {em : Emission β}
      {ems : List (Emission β)} (head : one i a calls em)
      (tail : Each one rest em.allocator more ems b) :
      Each one (i :: rest) a (calls ++ more) (em :: ems) b

/-- A selector as a branch: it is compiled. -/
def Branch (context : Variable) (s : Selector) (a : Allocator) (calls : List Call)
    (em : Emission Variable) : Prop :=
  calls = [⟨.selector s, context, a, em.toExpr⟩]

/-- A selector as an operand: a constant stands for itself and is not compiled. -/
inductive Operand (context : Variable) : Selector → Allocator → List Call → Emission Expr → Prop
  | constant (n : Node) (a : Allocator) :
      Operand context (.constant n) a [] ⟨.term (.node n), [], a⟩
  | computed {s : Selector} (h : (Part.selector s).isConstant = false) (a : Allocator)
      (em : Emission Expr) : Operand context s a [⟨.selector s, context, a, em⟩] em

/-- A step taken a number of times, each time from the value that the time before gave. -/
inductive Steps (step : Selector) :
    Nat → Variable → Allocator → List Call → Emission Variable → Prop
  | none (v : Variable) (a : Allocator) : Steps step 0 v a [] ⟨v, [], a⟩
  | more {n : Nat} {v : Variable} {a : Allocator} {calls : List Call}
      {first rest : Emission Variable}
      (tail : Steps step n first.value first.allocator calls rest) :
      Steps step (n + 1) v a (⟨.selector step, v, a, first.toExpr⟩ :: calls)
        ⟨rest.value, first.elements ++ rest.elements, rest.allocator⟩

/-- How the built-in rule of a node puts together what its children emit. -/
inductive Assembles (r : Registry) (limits : RecursionLimits) (context : Variable) (a : Allocator) :
    Part → List Call → Emission Expr → Prop
  | leaf {x : Part} {em : Emission Expr} (childless : x.children = [])
      (made : x.compile r limits context a = .ok em) : Assembles r limits context a x [] em
  | grouping {inner : Selector} {em : Emission Expr} :
      Assembles r limits context a (.selector (.grouping inner))
        [⟨.selector inner, context, a, em⟩] em
  | path {left right : Selector} {first : Emission Variable} {second : Emission Expr} :
      Assembles r limits context a (.selector (.path left right))
        [⟨.selector left, context, a, first.toExpr⟩,
          ⟨.selector right, first.value, first.allocator, second⟩]
        ⟨second.value, first.elements ++ second.elements, second.allocator⟩
  | intersection {left right : Selector} {first second : Emission Variable} :
      Assembles r limits context a (.selector (.intersection left right))
        [⟨.selector left, context, a, first.toExpr⟩,
          ⟨.selector right, context, first.allocator, second.toExpr⟩]
        ⟨.var first.value, first.elements ++ (second.elements ++ sameOf first.value second.value),
          second.allocator⟩
  | testing {delegate : Selector} {t : Test} {first : Emission Variable} {second : Emission Expr} :
      Assembles r limits context a (.selector (.testing delegate t))
        [⟨.selector delegate, context, a, first.toExpr⟩,
          ⟨.test t, first.value, first.allocator, second⟩]
        ⟨.var context, first.elements ++ (second.elements ++ filterOf second.value),
          second.allocator⟩
  | union {left right : Selector} {calls : List Call} {ems : List (Emission Variable)}
      {b : Allocator} (branches : Each (Branch context) [left, right] a calls ems b) :
      Assembles r limits context a (.selector (.union left right)) calls
        (unionOf context ems b).toExpr
  | single {inner : Selector} {min : Nat} {max : Option Nat} {calls : List Call}
      {em : Emission Variable} (bounded : unrollingBound limits min max = .ok min) (pos : 0 < min)
      (steps : Steps inner min context a calls em) :
      Assembles r limits context a (.selector (.recursive inner min max)) calls em.toExpr
  | several {inner : Selector} {min bound : Nat} {max : Option Nat} {calls : List Call}
      {ems : List (Emission Variable)} {b : Allocator}
      (bounded : unrollingBound limits min max = .ok bound) (several : ¬ (min = bound ∧ 0 < min))
      (depths : Each (fun depth => Steps inner depth context)
        (List.range' min (bound - min + 1)) a calls ems b) :
      Assembles r limits context a (.selector (.recursive inner min max)) calls
        (unionOf context ems b).toExpr
  | function {name : String} {args : List Selector} {f : FunctionRule} {calls : List Call}
      {ems : List (Emission Expr)} {b : Allocator} {e : Expr}
      (known : r.functions.get? name = some f)
      (operands : Each (Operand context) args a calls ems b)
      (applied : f name (ems.map Emission.value) = .ok e) :
      Assembles r limits context a (.selector (.function name args)) calls
        ⟨.var b.fresh.1, (ems.map Emission.elements).flatten ++ [.bind e b.fresh.1], b.fresh.2⟩
  | named {i : Iri} :
      Assembles r limits context a (.test (.isA (.constant (.iri i)))) []
        ⟨.always, [.ofTriple (.var context) (.iri Iri.rdfType) (.iri i)], a⟩
  | isA {type : Selector} {calls : List Call} {em : Emission Expr}
      (computed : ∀ i, type ≠ .constant (.iri i))
      (operand : Operand context type a.fresh.2 calls em) :
      Assembles r limits context a (.test (.isA type)) calls
        ⟨.equals (.var a.fresh.1) em.value,
          .ofTriple (.var context) (.iri Iri.rdfType) (.var a.fresh.1) :: em.elements,
          em.allocator⟩
  | and {left right : Test} {first second : Emission Expr} :
      Assembles r limits context a (.test (.and left right))
        [⟨.test left, context, a, first⟩, ⟨.test right, context, first.allocator, second⟩]
        ⟨.both (asScope first) (asScope second), [], second.allocator⟩
  | or {left right : Test} {first second : Emission Expr} :
      Assembles r limits context a (.test (.or left right))
        [⟨.test left, context, a, first⟩, ⟨.test right, context, first.allocator, second⟩]
        ⟨.oneOf (asScope first) (asScope second), [], second.allocator⟩
  | not {inner : Test} {em : Emission Expr} :
      Assembles r limits context a (.test (.not inner)) [⟨.test inner, context, a, em⟩]
        ⟨.not (asScope em), [], em.allocator⟩
  | comparison {op : Comparison} {left right : Selector} {calls more : List Call}
      {first second : Emission Expr} (left_operand : Operand context left a calls first)
      (right_operand : Operand context right first.allocator more second) :
      Assembles r limits context a (.test (.comparison op left right)) (calls ++ more)
        ⟨.compare op first.value second.value, first.elements ++ second.elements,
          second.allocator⟩
  | pathEquality {left right : Selector} {calls more : List Call} {first second : Emission Expr}
      (left_operand : Operand context left a calls first)
      (right_operand : Operand context right first.allocator more second) :
      Assembles r limits context a (.test (.pathEquality left right)) (calls ++ more)
        ⟨.equals first.value second.value, first.elements ++ second.elements, second.allocator⟩
  | pathExists {path : Selector} {em : Emission Expr} :
      Assembles r limits context a (.test (.pathExists path)) [⟨.selector path, context, a, em⟩]
        ⟨.always, em.elements, em.allocator⟩

variable {r : Registry} {limits : RecursionLimits} {context : Variable} {a b : Allocator}

private theorem made_selector {s : Selector} {em : Emission Variable}
    (h : Compile.selector r limits s context a = .ok em) :
    Call.Made r limits ⟨.selector s, context, a, em.toExpr⟩ := by
  change (Expr.var <$> Compile.selector r limits s context) a = .ok em.toExpr
  rw [map_eq_pure_bind, bind_eq_ok h rfl]
  simp [Emission.toExpr]

theorem compile_selector_ok {s : Selector} {em : Emission Expr}
    (h : (Part.selector s).compile r limits context a = .ok em) :
    ∃ first, Compile.selector r limits s context a = .ok first ∧ em = first.toExpr := by
  rw [compile, map_eq_pure_bind] at h
  obtain ⟨first, second, hfirst, hsecond, rfl⟩ := bind_ok h
  cases hsecond
  exact ⟨first, hfirst, by simp [Emission.toExpr]⟩

private theorem each_of_runs {one : ι → Allocator → List Call → Emission β → Prop} (f : ι → Emit β)
    (h : ∀ i a em, f i a = .ok em →
      ∃ calls, (∀ call ∈ calls, call.Made r limits) ∧ one i a calls em)
    (is : List ι) {ems : List (Emission β)} (hruns : Runs (is.map f) a ems b) :
    ∃ calls, (∀ call ∈ calls, call.Made r limits) ∧ Each one is a calls ems b := by
  induction is generalizing a ems with
  | nil =>
    cases hruns
    exact ⟨[], by simp, .nil _⟩
  | cons i rest ih =>
    obtain _ | ⟨hhead, htail⟩ := hruns
    obtain ⟨calls, hcalls, hone⟩ := h i a _ hhead
    obtain ⟨more, hmore, heach⟩ := ih htail
    exact ⟨calls ++ more, List.forall_mem_append.2 ⟨hcalls, hmore⟩, .cons hone heach⟩

private theorem exists_operand {s : Selector} {em : Emission Expr}
    (h : asOperand s (Compile.selector r limits s context) a = .ok em) :
    ∃ calls, (∀ call ∈ calls, call.Made r limits) ∧ Operand context s a calls em := by
  by_cases hs : (Part.selector s).isConstant = true
  · cases s with
    | constant n =>
      cases h
      exact ⟨[], by simp, .constant n a⟩
    | _ => cases hs
  · have hcompiled : (Part.selector s).compile r limits context a = .ok em := by
      rw [compile, map_eq_pure_bind]
      cases s with
      | constant n => exact absurd rfl hs
      | _ => exact h
    have hmade : Call.Made r limits ⟨.selector s, context, a, em⟩ := hcompiled
    exact ⟨_, List.forall_mem_singleton.2 hmade, .computed (by simpa using hs) a em⟩

private theorem exists_operands {args : List Selector} {em : Emission (List Expr)}
    (h : operands r limits args context a = .ok em) :
    ∃ calls ems, (∀ call ∈ calls, call.Made r limits) ∧
      Each (Operand context) args a calls ems em.allocator ∧
      em.value = ems.map Emission.value ∧ em.elements = (ems.map Emission.elements).flatten := by
  induction args generalizing a em with
  | nil =>
    cases h
    exact ⟨[], [], by simp, .nil _, rfl, rfl⟩
  | cons s rest ih =>
    rw [operands] at h
    obtain ⟨first, second, hfirst, hsecond, rfl⟩ := bind_ok h
    obtain ⟨more, last, hmore, hlast, rfl⟩ := bind_ok hsecond
    cases hlast
    obtain ⟨calls, hcalls, hoperand⟩ := exists_operand hfirst
    obtain ⟨calls', ems, hcalls', heach, hvalue, helements⟩ := ih hmore
    refine ⟨calls ++ calls', first :: ems, List.forall_mem_append.2 ⟨hcalls, hcalls'⟩,
      .cons hoperand heach, ?_, ?_⟩
    · rw [List.map_cons, ← hvalue]
    · rw [List.map_cons, List.flatten_cons, ← helements, List.append_nil]

private theorem exists_steps {inner : Selector} {n : Nat} {v : Variable} {em : Emission Variable}
    (h : iterate (fun c => Compile.selector r limits inner c) n v a = .ok em) :
    ∃ calls, (∀ call ∈ calls, call.Made r limits) ∧ Steps inner n v a calls em := by
  induction n generalizing v a em with
  | zero =>
    cases h
    exact ⟨[], by simp, .none v a⟩
  | succ n ih =>
    obtain ⟨first, rest, hfirst, hrest, rfl⟩ := bind_ok h
    obtain ⟨calls, hcalls, hsteps⟩ := ih hrest
    exact ⟨_, List.forall_mem_cons.2 ⟨made_selector hfirst, hcalls⟩, .more hsteps⟩

private theorem value_enclosed {m : Emit Expr} {em : Emission Expr} (h : enclosed m a = .ok em) :
    ∃ inner, m a = .ok inner ∧ em = ⟨asScope inner, [], inner.allocator⟩ := by
  obtain ⟨inner, hinner, helements, hallocator, hvalue⟩ := enclosed_ok h
  refine ⟨inner, hinner, ?_⟩
  have hscope : em.value = asScope inner := by
    unfold asScope
    rcases hvalue with ⟨hempty, hvalue⟩ | ⟨hne, hvalue⟩
    · simp [hempty, hvalue]
    · simp [hne, hvalue]
  rw [← hscope, ← helements, ← hallocator]

theorem governed_selector_of_builtin {α : Type} {k : SelectorKind}
    (h : r.selectors k = some .builtin) (f : SelectorRule → Emit α) (m : Emit α) :
    governed (r.selectorRule k) f m = m := by
  simp only [governed, Registry.selectorRule, h]

private theorem governed_test_of_builtin {α : Type} {k : TestKind}
    (h : r.tests k = some .builtin) (f : TestRule → Emit α) (m : Emit α) :
    governed (r.testRule k) f m = m := by
  simp only [governed, Registry.testRule, h]

private theorem exists_assembles_selector {s : Selector} {em : Emission Variable}
    (hbuiltin : r.selectors s.kind = some .builtin)
    (h : Compile.selector r limits s context a = .ok em) :
    ∃ calls, (∀ call ∈ calls, call.Made r limits) ∧
      Assembles r limits context a (.selector s) calls em.toExpr := by
  have hmade : (Part.selector s).compile r limits context a = .ok em.toExpr := made_selector h
  rw [Compile.selector.eq_def, governed_selector_of_builtin hbuiltin] at h
  cases s with
  | property p => exact ⟨[], by simp, .leaf rfl hmade⟩
  | reverse p => exact ⟨[], by simp, .leaf rfl hmade⟩
  | path left right =>
    obtain ⟨first, second, hfirst, hsecond, rfl⟩ := bind_ok h
    refine ⟨[⟨.selector left, context, a, first.toExpr⟩,
      ⟨.selector right, first.value, first.allocator, second.toExpr⟩], ?_, .path⟩
    simp [made_selector hfirst, made_selector hsecond]
  | union left right =>
    obtain ⟨ems, b, hruns, rfl⟩ := alternatives_ok h
    have hbranch (s : Selector) (a : Allocator) (em : Emission Variable)
        (hem : Compile.selector r limits s context a = .ok em) :
        ∃ calls, (∀ call ∈ calls, call.Made r limits) ∧ Branch context s a calls em :=
      ⟨_, List.forall_mem_singleton.2 (made_selector hem), rfl⟩
    obtain ⟨calls, hcalls, heach⟩ := each_of_runs (fun s => Compile.selector r limits s context)
      hbranch [left, right] hruns
    exact ⟨calls, hcalls, .union heach⟩
  | intersection left right =>
    obtain ⟨first, rest, hfirst, hrest, rfl⟩ := bind_ok h
    obtain ⟨second, last, hsecond, hlast, rfl⟩ := bind_ok hrest
    obtain ⟨same, done, hsame, hdone, rfl⟩ := bind_ok hlast
    rw [requireSame_apply, ← sameOf] at hsame
    cases hsame
    cases hdone
    dsimp only
    rw [List.append_nil]
    refine ⟨[⟨.selector left, context, a, first.toExpr⟩,
      ⟨.selector right, context, first.allocator, second.toExpr⟩], ?_, .intersection⟩
    simp [made_selector hfirst, made_selector hsecond]
  | recursive inner min max =>
    obtain ⟨bound, hbound, hunrolled⟩ := ofExcept_bind_ok h
    unfold unrolled at hunrolled
    split at hunrolled
    · next hsingle =>
      obtain ⟨rfl, hpos⟩ := hsingle
      obtain ⟨calls, hcalls, hsteps⟩ := exists_steps hunrolled
      exact ⟨calls, hcalls, .single hbound hpos hsteps⟩
    · next hseveral =>
      obtain ⟨ems, b, hruns, rfl⟩ := alternatives_ok hunrolled
      have hdepths : Runs ((List.range' min (bound - min + 1)).map fun depth =>
          iterate (fun c => Compile.selector r limits inner c) depth context) a ems b := by
        rw [List.range'_eq_map_range, List.map_map]
        exact hruns
      obtain ⟨calls, hcalls, heach⟩ := each_of_runs _ (fun _ _ _ => exists_steps) _ hdepths
      exact ⟨calls, hcalls, .several hbound hseveral heach⟩
  | grouping inner => exact ⟨_, List.forall_mem_singleton.2 (made_selector h), .grouping⟩
  | testing delegate t =>
    obtain ⟨first, rest, hfirst, hrest, rfl⟩ := bind_ok h
    obtain ⟨second, last, hsecond, hlast, rfl⟩ := bind_ok hrest
    obtain ⟨required, done, hrequired, hdone, rfl⟩ := bind_ok hlast
    rw [require_apply, ← filterOf] at hrequired
    cases hrequired
    cases hdone
    dsimp only
    rw [List.append_nil]
    have htest : Call.Made r limits ⟨.test t, first.value, first.allocator, second⟩ := hsecond
    refine ⟨[⟨.selector delegate, context, a, first.toExpr⟩,
      ⟨.test t, first.value, first.allocator, second⟩], ?_, .testing⟩
    simp [made_selector hfirst, htest]
  | function name args =>
    obtain ⟨f, hf, hrest⟩ := ofExcept_bind_ok h
    obtain ⟨values, last, hvalues, hlast, rfl⟩ := bind_ok hrest
    obtain ⟨e, he, hbind⟩ := ofExcept_bind_ok hlast
    rw [bindFresh_apply] at hbind
    cases hbind
    obtain ⟨calls, ems, hcalls, heach, hvalue, helements⟩ := exists_operands hvalues
    rw [hvalue] at he
    rw [helements]
    exact ⟨calls, hcalls, .function (Registry.function_eq_ok_iff.1 hf) heach he⟩
  | self => exact ⟨[], by simp, .leaf rfl hmade⟩
  | wildcard => exact ⟨[], by simp, .leaf rfl hmade⟩
  | constant n => exact ⟨[], by simp, .leaf rfl hmade⟩

private theorem exists_joined {left right : Test} {join : Expr → Expr → Expr} {em : Emission Expr}
    (h : (do
      let l ← enclosed (Compile.test r limits left context)
      let l' ← enclosed (Compile.test r limits right context)
      return join l l') a = .ok em) :
    ∃ first second, (∀ call ∈ [Call.mk (.test left) context a first,
        ⟨.test right, context, first.allocator, second⟩], call.Made r limits) ∧
      em = ⟨join (asScope first) (asScope second), [], second.allocator⟩ := by
  obtain ⟨l, rest, hl, hrest, rfl⟩ := bind_ok h
  obtain ⟨l', last, hl', hlast, rfl⟩ := bind_ok hrest
  cases hlast
  obtain ⟨first, hfirst, rfl⟩ := value_enclosed hl
  obtain ⟨second, hsecond, rfl⟩ := value_enclosed hl'
  have hmade : Call.Made r limits ⟨.test left, context, a, first⟩ := hfirst
  have hmade' : Call.Made r limits ⟨.test right, context, first.allocator, second⟩ := hsecond
  exact ⟨first, second, by simp [hmade, hmade'], rfl⟩

private theorem exists_compared {left right : Selector} {join : Expr → Expr → Expr}
    {em : Emission Expr}
    (h : (do
      let l ← asOperand left (Compile.selector r limits left context)
      let l' ← asOperand right (Compile.selector r limits right context)
      return join l l') a = .ok em) :
    ∃ calls more first second, (∀ call ∈ calls ++ more, call.Made r limits) ∧
      Operand context left a calls first ∧ Operand context right first.allocator more second ∧
      em = ⟨join first.value second.value, first.elements ++ second.elements,
        second.allocator⟩ := by
  obtain ⟨first, rest, hfirst, hrest, rfl⟩ := bind_ok h
  obtain ⟨second, last, hsecond, hlast, rfl⟩ := bind_ok hrest
  cases hlast
  obtain ⟨calls, hcalls, hoperand⟩ := exists_operand hfirst
  obtain ⟨more, hmore, hoperand'⟩ := exists_operand hsecond
  refine ⟨calls, more, first, second, List.forall_mem_append.2 ⟨hcalls, hmore⟩, hoperand, hoperand',
    ?_⟩
  dsimp only
  rw [List.append_nil]

private theorem exists_assembles_test {t : Test} {em : Emission Expr}
    (hbuiltin : r.tests t.kind = some .builtin)
    (h : Compile.test r limits t context a = .ok em) :
    ∃ calls, (∀ call ∈ calls, call.Made r limits) ∧
      Assembles r limits context a (.test t) calls em := by
  have hmade : (Part.test t).compile r limits context a = .ok em := h
  cases t with
  | isA type =>
    by_cases hnamed : ∃ i, type = .constant (.iri i)
    · obtain ⟨i, rfl⟩ := hnamed
      rw [Compile.test, governed_test_of_builtin hbuiltin] at h
      cases h
      exact ⟨[], by simp, .named⟩
    · have hcomputed : ∀ i, type ≠ .constant (.iri i) := fun i hi => hnamed ⟨i, hi⟩
      rw [Compile.test, governed_test_of_builtin hbuiltin] at h
      · obtain ⟨found, rest, hfound, hrest, rfl⟩ := bind_ok h
        obtain rfl := fresh_ok hfound
        obtain ⟨written, rest', hwritten, hrest', rfl⟩ := bind_ok hrest
        cases hwritten
        obtain ⟨operand, last, hoperand, hlast, rfl⟩ := bind_ok hrest'
        cases hlast
        obtain ⟨calls, hcalls, htaken⟩ := exists_operand hoperand
        dsimp only
        rw [List.append_nil]
        exact ⟨calls, hcalls, .isA hcomputed htaken⟩
      · exact hcomputed
  | and left right =>
    rw [Compile.test, governed_test_of_builtin hbuiltin] at h
    obtain ⟨first, second, hcalls, rfl⟩ := exists_joined h
    exact ⟨_, hcalls, .and⟩
  | or left right =>
    rw [Compile.test, governed_test_of_builtin hbuiltin] at h
    obtain ⟨first, second, hcalls, rfl⟩ := exists_joined h
    exact ⟨_, hcalls, .or⟩
  | not inner =>
    rw [Compile.test, governed_test_of_builtin hbuiltin] at h
    obtain ⟨e, last, he, hlast, rfl⟩ := bind_ok h
    cases hlast
    obtain ⟨first, hfirst, rfl⟩ := value_enclosed he
    have hinner : Call.Made r limits ⟨.test inner, context, a, first⟩ := hfirst
    exact ⟨_, List.forall_mem_singleton.2 hinner, .not⟩
  | comparison op left right =>
    rw [Compile.test, governed_test_of_builtin hbuiltin] at h
    obtain ⟨calls, more, first, second, hcalls, hleft, hright, rfl⟩ := exists_compared h
    exact ⟨_, hcalls, .comparison hleft hright⟩
  | pathEquality left right =>
    rw [Compile.test, governed_test_of_builtin hbuiltin] at h
    obtain ⟨calls, more, first, second, hcalls, hleft, hright, rfl⟩ := exists_compared h
    exact ⟨_, hcalls, .pathEquality hleft hright⟩
  | pathExists path =>
    rw [Compile.test, governed_test_of_builtin hbuiltin] at h
    obtain ⟨value, last, hvalue, hlast, rfl⟩ := bind_ok h
    cases hlast
    dsimp only
    rw [List.append_nil]
    exact ⟨_, List.forall_mem_singleton.2 (made_selector hvalue), .pathExists⟩
  | language tag => exact ⟨[], by simp, .leaf rfl hmade⟩
  | datatype type => exact ⟨[], by simp, .leaf rfl hmade⟩

/-- What a node with the built-in rule emits is put together from what its children emit. -/
theorem exists_assembles {x : Part} {em : Emission Expr} (hbuiltin : x.IsBuiltin r)
    (h : x.compile r limits context a = .ok em) :
    ∃ calls, (∀ call ∈ calls, call.Made r limits) ∧ Assembles r limits context a x calls em := by
  cases x with
  | selector s =>
    obtain ⟨first, hfirst, rfl⟩ := compile_selector_ok h
    exact exists_assembles_selector hbuiltin hfirst
  | test t => exact exists_assembles_test hbuiltin h

end Part

end GraphPath
