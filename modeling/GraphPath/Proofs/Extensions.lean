import GraphPath.Proofs.Neatness

/-!
# Rules of extensions

A registry may hold rules that are not the built-in ones. All that is asked of them is that they
introduce no variable but those they take from the allocator. Then the same is true of everything
that is compiled with the registry, and what is compiled for a session shares the root only.
-/

namespace GraphPath

open Emit

namespace Emit

variable {α β : Type} {known : Variable → Prop} {vars : α → List Variable}

private theorem Confined.mono {known' : Variable → Prop} {m : Emit α} (h : m.Confined known vars)
    (hknown : ∀ v, known v → known' v) : m.Confined known' vars := by
  intro a em hem
  have hwithin := h a em hem
  exact ⟨hwithin.later, fun v hv => (hwithin.written v hv).imp_left (hknown v),
    fun v hv => (hwithin.valued v hv).imp_left (hknown v)⟩

theorem Confined.bind {vars' : β → List Variable} {m : Emit α} {f : α → Emit β}
    (hm : m.Confined known vars)
    (hf : ∀ x, (f x).Confined (fun v => known v ∨ v ∈ vars x) vars') :
    (m >>= f).Confined known vars' := by
  intro a em hem
  obtain ⟨first, second, hfirst, hsecond, rfl⟩ := bind_ok hem
  have h := hm a first hfirst
  have h' := hf first.value first.allocator second hsecond
  have hspent : ∀ v, known v ∨ a.Spent first.allocator v → known v ∨
      a.Spent second.allocator v := fun v => Or.imp_right fun hv => hv.later h'.later
  -- the second step knows the value of the first, which the first may have taken
  have hlast : ∀ v, (known v ∨ v ∈ vars first.value) ∨ first.allocator.Spent second.allocator v →
      known v ∨ a.Spent second.allocator v := by
    rintro v ((hv | hv) | hv)
    · exact .inl hv
    · exact hspent v (h.valued v hv)
    · exact .inr (hv.earlier h.later)
  refine ⟨h.later.trans h'.later, fun v hv => ?_, fun v hv => hlast v (h'.valued v hv)⟩
  rw [Group.vars, Element.groupVars_append, List.mem_append] at hv
  rcases hv with hv | hv
  · exact hspent v (h.written v hv)
  · exact hlast v (h'.written v hv)

theorem confined_done (x : α) (hx : ∀ v ∈ vars x, known v) : (done x).Confined known vars :=
  (stays_done x hx).confined

theorem confined_write {e : Element} (he : ∀ v ∈ e.vars, known v) :
    (write e).Confined known fun _ => [] := by
  intro a em hem
  cases hem
  refine ⟨.refl a, fun v hv => .inl (he v ?_), by simp⟩
  simpa [Group.vars, Element.groupVars] using hv

private theorem confined_ofExcept_bind {x : Except CompileError β} {f : β → Emit α}
    (h : ∀ y, x = .ok y → (f y).Confined known vars) : (ofExcept x >>= f).Confined known vars := by
  intro a em hem
  obtain ⟨y, hy, hfy⟩ := ofExcept_bind_ok hem
  exact h y hy a em hfy

private theorem confined_iterate {f : Variable → Emit Variable}
    (h : ∀ c, (f c).Confined (· = c) fun v => [v]) (n : Nat) (c : Variable) :
    (iterate f n c).Confined (· = c) fun v => [v] := by
  induction n generalizing c with
  | zero => exact confined_done c (by simp)
  | succ n ih =>
    refine (h c).bind fun next => (ih next).mono ?_
    rintro v rfl
    simp

end Emit

/-- The rules of the extensions take from the allocator what they introduce beside the context, and
the call of a function speaks about the values of its arguments only. -/
structure Registry.Confined (r : Registry) : Prop where
  selector : ∀ kind name rule, r.selectors kind = some (.extension name rule) →
    ∀ s context, (rule s context).Confined (· = context) fun v => [v]
  test : ∀ kind name rule, r.tests kind = some (.extension name rule) →
    ∀ t context, (rule t context).Confined (· = context) Expr.vars
  function : ∀ name f, r.functions.get? name = some f →
    ∀ args e, f name args = .ok e → ∀ v ∈ e.vars, v ∈ Expr.listVars args

namespace Registry

theorem confined_builtin : Registry.builtin.Confined where
  selector := by
    intro kind name rule h
    cases h
  test := by
    intro kind name rule h
    cases h
  function := by
    intro name f hf args e he v hv
    obtain ⟨b, rfl⟩ := exists_call (function_eq_ok_iff.2 hf) he
    rwa [Expr.vars] at hv

theorem Confined.registerSelector {r : Registry} (hr : r.Confined) (kind : SelectorKind)
    (name : String) {rule : SelectorRule}
    (hrule : ∀ s context, (rule s context).Confined (· = context) fun v => [v]) :
    (r.registerSelector kind name rule).Confined := by
  refine ⟨fun kind' name' rule' h => ?_, hr.test, hr.function⟩
  change (if kind' = kind then some (Rule.extension name rule) else r.selectors kind') = _ at h
  by_cases hkind : kind' = kind
  · rw [if_pos hkind] at h
    cases h
    exact hrule
  · rw [if_neg hkind] at h
    exact hr.selector kind' name' rule' h

theorem Confined.registerTest {r : Registry} (hr : r.Confined) (kind : TestKind)
    (name : String) {rule : TestRule}
    (hrule : ∀ t context, (rule t context).Confined (· = context) Expr.vars) :
    (r.registerTest kind name rule).Confined := by
  refine ⟨hr.selector, fun kind' name' rule' h => ?_, hr.function⟩
  change (if kind' = kind then some (Rule.extension name rule) else r.tests kind') = _ at h
  by_cases hkind : kind' = kind
  · rw [if_pos hkind] at h
    cases h
    exact hrule
  · rw [if_neg hkind] at h
    exact hr.test kind' name' rule' h

theorem Confined.registerFunction {r : Registry} (hr : r.Confined) (name : String)
    {f : FunctionRule} (hf : ∀ args e, f name args = .ok e → ∀ v ∈ e.vars, v ∈ Expr.listVars args) :
    (r.registerFunction name f).Confined := by
  refine ⟨hr.selector, hr.test, fun name' f' h => ?_⟩
  change (r.functions.insert name f).get? name' = some f' at h
  rw [Table.get?_insert] at h
  by_cases hname : name' = name
  · rw [if_pos hname] at h
    cases h
    rwa [hname]
  · rw [if_neg hname] at h
    exact hr.function name' f' h

end Registry

namespace Compile

variable {r : Registry} {known : Variable → Prop}

private theorem confined_governed {α ρ : Type} {vars : α → List Variable}
    {rule : Except CompileError (Rule ρ)} {extended : ρ → Emit α} {builtin : Emit α}
    (hextended : ∀ name f, rule = .ok (.extension name f) → (extended f).Confined known vars)
    (hbuiltin : builtin.Confined known vars) :
    (governed rule extended builtin).Confined known vars := by
  unfold governed
  split
  · intro a em hem
    cases hem
  · next name f => exact hextended name f rfl
  · exact hbuiltin

private theorem confined_selectorRule (hr : r.Confined) {s : Selector} {context : Variable}
    {m : Emit Variable} (hm : m.Confined (· = context) fun v => [v]) :
    (governed (r.selectorRule s.kind) (fun rule => rule s context) m).Confined (· = context)
      fun v => [v] := by
  refine confined_governed (fun name f hf => ?_) hm
  unfold Registry.selectorRule at hf
  split at hf
  · next hkind =>
    cases hf
    exact hr.selector _ _ _ hkind s context
  · cases hf

private theorem confined_testRule (hr : r.Confined) {t : Test} {context : Variable} {m : Emit Expr}
    (hm : m.Confined (· = context) Expr.vars) :
    (governed (r.testRule t.kind) (fun rule => rule t context) m).Confined (· = context)
      Expr.vars := by
  refine confined_governed (fun name f hf => ?_) hm
  unfold Registry.testRule at hf
  split at hf
  · next hkind =>
    cases hf
    exact hr.test _ _ _ hkind t context
  · cases hf

private theorem confined_asOperand {s : Selector} {m : Emit Variable}
    (h : m.Confined known fun v => [v]) : (asOperand s m).Confined known Expr.vars := by
  have hvar : (m >>= fun v => pure (.var v)).Confined known Expr.vars :=
    h.bind fun v => confined_done _ fun w hw => .inr hw
  cases s with
  | constant n => exact confined_done _ (by simp [Expr.vars, Term.vars])
  | _ => exact hvar

private theorem confined_compared (op : Comparison) {left right : Selector} {m m' : Emit Variable}
    (h : m.Confined known fun v => [v]) (h' : m'.Confined known fun v => [v]) :
    Confined known Expr.vars (do
      let l ← asOperand left m
      let l' ← asOperand right m'
      return .compare op l l') := by
  refine (confined_asOperand h).bind fun l => .bind ((confined_asOperand h').mono fun v => .inl)
    fun l' => confined_done _ fun v hv => ?_
  rw [Expr.vars, List.mem_append] at hv
  exact hv.imp .inr id

private theorem confined_joined {m m' : Emit Expr} {join : Expr → Expr → Expr}
    (h : m.Confined known Expr.vars) (h' : m'.Confined known Expr.vars)
    (hjoin : ∀ {l l' v}, v ∈ (join l l').vars → v ∈ l.vars ∨ v ∈ l'.vars) :
    Confined known Expr.vars (do
      let l ← enclosed m
      let l' ← enclosed m'
      return join l l') :=
  (confined_enclosed h).bind fun _ => .bind ((confined_enclosed h').mono fun _ => .inl) fun _ =>
    confined_done _ fun _ hv => (hjoin hv).imp .inr id

private theorem confined_unrolled {step : Variable → Emit Variable}
    (h : ∀ c, (step c).Confined (· = c) fun v => [v]) (min bound : Nat) (context : Variable) :
    (unrolled step min bound context).Confined (· = context) fun v => [v] := by
  unfold unrolled
  split
  · exact confined_iterate h min context
  · apply confined_alternatives
    intro m hm
    obtain ⟨i, -, rfl⟩ := List.mem_map.1 hm
    exact confined_iterate h (min + i) context

mutual

/-- What a selector compiles to speaks about its context and about variables of its own. -/
theorem confined_selector (hr : r.Confined) (limits : RecursionLimits) (s : Selector)
    (context : Variable) : (selector r limits s context).Confined (· = context) fun v => [v] := by
  cases s with
  | property p =>
    rw [selector]
    exact confined_selectorRule hr (stays_alongProperty p context).confined
  | reverse p =>
    rw [selector]
    exact confined_selectorRule hr (stays_againstProperty p context).confined
  | path left right =>
    rw [selector]
    apply confined_selectorRule hr
    refine (confined_selector hr limits left context).bind fun middle =>
      (confined_selector hr limits right middle).mono ?_
    rintro v rfl
    simp
  | union left right =>
    rw [selector]
    apply confined_selectorRule hr
    apply confined_alternatives
    intro m hm
    rcases List.mem_pair.1 hm with rfl | rfl
    · exact confined_selector hr limits left context
    · exact confined_selector hr limits right context
  | intersection left right =>
    rw [selector]
    apply confined_selectorRule hr
    exact (confined_selector hr limits left context).bind fun l => .bind
      ((confined_selector hr limits right context).mono fun v => .inl) fun l' => .bind
      (stays_requireSame (.inl (.inr (by simp))) (.inr (by simp))).confined fun _ =>
      confined_done l (by simp)
  | recursive inner min max =>
    rw [selector]
    apply confined_selectorRule hr
    exact confined_ofExcept_bind fun depth _ =>
      confined_unrolled (fun c => confined_selector hr limits inner c) min depth context
  | grouping inner =>
    rw [selector]
    exact confined_selectorRule hr (confined_selector hr limits inner context)
  | testing delegate t =>
    rw [selector]
    apply confined_selectorRule hr
    refine (confined_selector hr limits delegate context).bind fun value => .bind
      ((confined_test hr limits t value).mono ?_) fun e => .bind
      (stays_require fun v hv => .inr hv).confined fun _ => confined_done context (by simp)
    rintro v rfl
    simp
  | function name args =>
    rw [selector]
    apply confined_selectorRule hr
    refine confined_ofExcept_bind fun f hf => (confined_operands hr limits args context).bind
      fun values => confined_ofExcept_bind fun e he =>
        (stays_bindFresh fun v hv => .inr ?_).confined
    exact hr.function name f (Registry.function_eq_ok_iff.1 hf) values e he v hv
  | self =>
    rw [selector]
    exact confined_selectorRule hr (confined_done context (by simp))
  | wildcard =>
    rw [selector]
    exact confined_selectorRule hr (stays_alongAny context).confined
  | constant n =>
    rw [selector]
    exact confined_selectorRule hr (stays_bindFresh (by simp [Expr.vars, Term.vars])).confined

private theorem confined_operands (hr : r.Confined) (limits : RecursionLimits)
    (args : List Selector) (context : Variable) :
    (operands r limits args context).Confined (· = context) Expr.listVars := by
  cases args with
  | nil =>
    rw [operands]
    exact confined_done [] (by simp [Expr.listVars])
  | cons s rest =>
    rw [operands]
    refine (confined_asOperand (confined_selector hr limits s context)).bind fun e => .bind
      ((confined_operands hr limits rest context).mono fun v => .inl) fun more =>
      confined_done _ fun v hv => ?_
    rcases List.mem_append.1 hv with hv | hv
    · exact .inl (.inr hv)
    · exact .inr hv

private theorem confined_test (hr : r.Confined) (limits : RecursionLimits) (t : Test)
    (context : Variable) : (test r limits t context).Confined (· = context) Expr.vars := by
  cases t with
  | isA type =>
    by_cases htype : ∃ i, type = .constant (.iri i)
    · obtain ⟨i, rfl⟩ := htype
      rw [test]
      apply confined_testRule hr
      refine .bind (stays_writeTriple ?_).confined fun _ => confined_done _ (by simp [Expr.vars])
      simp [TriplePattern.vars, Term.vars, Term.iri]
    · rw [test]
      · apply confined_testRule hr
        refine stays_fresh.confined.bind fun found => .bind (stays_writeTriple ?_).confined
          fun _ => .bind ((confined_asOperand (confined_selector hr limits type context)).mono
            fun v hv => .inl (.inl hv)) fun expected => confined_done _ fun v hv => ?_
        · simp [TriplePattern.vars, Term.vars, Term.iri]
        · rcases List.mem_append.1 hv with hv | hv
          · exact .inl (.inl (.inr hv))
          · exact .inr hv
      · exact fun i hi => htype ⟨i, hi⟩
  | and left right =>
    rw [test]
    exact confined_testRule hr (confined_joined (confined_test hr limits left context)
      (confined_test hr limits right context) mem_vars_both)
  | or left right =>
    rw [test]
    exact confined_testRule hr (confined_joined (confined_test hr limits left context)
      (confined_test hr limits right context) mem_vars_oneOf)
  | not inner =>
    rw [test]
    apply confined_testRule hr
    exact (confined_enclosed (confined_test hr limits inner context)).bind fun e =>
      confined_done _ fun v hv => .inr (by rwa [Expr.vars] at hv)
  | comparison op left right =>
    rw [test]
    exact confined_testRule hr (confined_compared op (confined_selector hr limits left context)
      (confined_selector hr limits right context))
  | pathEquality left right =>
    rw [test]
    exact confined_testRule hr (confined_compared .eq (confined_selector hr limits left context)
      (confined_selector hr limits right context))
  | pathExists path =>
    rw [test]
    apply confined_testRule hr
    exact (confined_selector hr limits path context).bind fun _ =>
      confined_done _ (by simp [Expr.vars])
  | language tag =>
    rw [test]
    apply confined_testRule hr
    apply confined_done
    simp [languageCondition, Expr.vars, Expr.listVars, Expr.var, Expr.literal, Term.vars,
      Term.literal]
  | datatype type =>
    rw [test]
    apply confined_testRule hr
    apply confined_done
    simp [datatypeCondition, Expr.equals, Expr.vars, Expr.listVars, Expr.var, Term.vars, Term.iri]

end

end Compile

open Compile

theorem Session.emitOrder_ok {s : Session} {key : Selector × Direction} {a : Allocator}
    {em : Emission OrderKey} (h : s.emitOrder key a = .ok em) :
    ∃ first, selector s.registry s.settings.recursion key.1 s.root a = .ok first ∧
      em = ⟨⟨first.value, key.2⟩,
        if first.elements.isEmpty then [] else [.optional first.elements], first.allocator⟩ := by
  obtain ⟨captured, rest, hcaptured, hrest, rfl⟩ := bind_ok h
  obtain ⟨first, hfirst, rfl⟩ := captured_ok hcaptured
  refine ⟨first, hfirst, ?_⟩
  dsimp only at hrest
  cases hempty : first.elements.isEmpty <;> rw [hempty] at hrest <;> cases hrest <;> rfl

/-- How the query of a session is put together: the criteria and the orderings are compiled one
after the other from the allocator of the settings, and their elements follow the types. -/
structure Session.Assembly (s : Session) (q : Query) where
  criteria : List (Emission Unit)
  orders : List (Emission OrderKey)
  middle : Allocator
  last : Allocator
  criteria_run : Runs (s.criteria.map fun k => k.emit s.registry s.settings.recursion s.root)
    (.ofSettings s.settings) criteria middle
  orders_run : Runs (s.orderBy.map s.emitOrder) middle orders last
  pattern_eq : q.pattern = typePattern s.root s.types ++
    ((criteria.map Emission.elements).flatten ++ (orders.map Emission.elements).flatten)

/-- What each criterion and each ordering contributed. -/
def Session.Assembly.parts {s : Session} {q : Query} (p : s.Assembly q) : List Group :=
  p.criteria.map Emission.elements ++ p.orders.map Emission.elements

/-- A session that builds has a query of types, criteria and orderings, in turn. -/
theorem Session.exists_assembly {s : Session} {em : Emission (List OrderKey)}
    (hem : s.emit (.ofSettings s.settings) = .ok em) {q : Query} (hq : q.pattern = em.elements) :
    ∃ p : s.Assembly q, p.last = em.allocator := by
  obtain ⟨types, rest, htypes, hrest, rfl⟩ := bind_ok hem
  obtain ⟨criteria, orders, hcriteria, horders, rfl⟩ := bind_ok hrest
  obtain ⟨units, hunits⟩ := inOrder_emitType s.root s.types (.ofSettings s.settings)
  obtain rfl := Except.ok.inj (htypes.symm.trans hunits)
  obtain ⟨ems, hruns, -, helements⟩ := inOrder_ok hcriteria
  obtain ⟨ems', hruns', -, helements'⟩ := inOrder_ok horders
  exact ⟨⟨ems, ems', _, _, hruns, hruns', by rw [hq, helements, helements', typePattern]⟩, rfl⟩

section Parts

variable {s : Session}

private theorem Session.confined_criterion (hregistry : s.registry.Confined) (k : Criterion) :
    (k.emit s.registry s.settings.recursion s.root).Confined (· = s.root) fun _ => [] := by
  refine (confined_selector hregistry s.settings.recursion k.selector s.root).bind fun value => ?_
  cases k.constraint with
  | none => exact confined_done () (by simp)
  | some c =>
    refine confined_write fun v hv => .inr ?_
    rwa [Element.vars, Constraint.vars_condition] at hv

theorem Session.confined_emitOrder (hregistry : s.registry.Confined) (key : Selector × Direction) :
    (s.emitOrder key).Confined (· = s.root) fun k => [k.target] := by
  intro a em hem
  obtain ⟨first, hfirst, rfl⟩ := Session.emitOrder_ok hem
  have hwithin := confined_selector hregistry s.settings.recursion key.1 s.root a first hfirst
  refine ⟨hwithin.later, fun v hv => ?_, hwithin.valued⟩
  cases hempty : first.elements.isEmpty <;> rw [hempty] at hv
  · apply hwithin.written v
    simpa [Group.vars, Element.groupVars, Element.vars] using hv
  · simp [Group.vars, Element.groupVars] at hv

/-- Contributions take different variables, so they share the root only. -/
theorem Session.Assembly.shareOnly {q : Query} (p : s.Assembly q)
    (hregistry : s.registry.Confined) : ShareOnly [s.root] p.parts := by
  have hroot : ∀ v, v = s.root → ¬ (Allocator.ofSettings s.settings).Pending v := by
    rintro v rfl
    exact Allocator.root_not_pending (.ofSettings s.settings)
  obtain ⟨hlater, hcriteria, hapart⟩ := p.criteria_run.apart hroot (List.forall_mem_map.2
    fun k _ b em _ => confined_criterion hregistry k b em)
  obtain ⟨-, horders, hapart'⟩ := p.orders_run.apart (fun v hv hp => hroot v hv (hlater v hp))
    (List.forall_mem_map.2 fun key _ b em _ => confined_emitOrder hregistry key b em)
  refine List.pairwise_append.2 ⟨List.pairwise_map.2 (hapart.imp ?_),
    List.pairwise_map.2 (hapart'.imp ?_), ?_⟩
  · exact fun h v hv hv' => by simpa using h v (by simpa using hv) (by simpa using hv')
  · exact fun h v hv hv' => by
      simpa using h v (List.mem_append_left _ hv) (List.mem_append_left _ hv')
  · simp only [List.forall_mem_map]
    intro em hem em' hem' v hv hv'
    rcases hcriteria em hem v (List.mem_append_left _ hv) with rfl | hspent
    · simp
    · rcases horders em' hem' v (List.mem_append_left _ hv') with rfl | hspent'
      · simp
      · exact absurd hspent'.1 hspent.2

end Parts

end GraphPath
