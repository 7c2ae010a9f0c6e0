import GraphPath.Proofs.Extensions
import GraphPath.Proofs.Spelling

/-!
# Hygiene of compiled queries

The variables of a built query are the root and what the allocator gave. The parts that the criteria
and orderings contribute share the root only, the branches of a union share its context and its
output only, what a test asks in a scope of its own stands nowhere else, and a binding never has a
target that stands before it.
-/

namespace GraphPath

open Emit

namespace Compile

/-- Where the branches of a union come from: a selector compiled from a context to an output, or the
match of every resource. They share nothing else. -/
inductive UnionOf (limits : RecursionLimits) : List Group → Prop
  | selector {s : Selector} {context output : Variable} {a a' : Allocator} {branches : List Group}
      (compiled : selector .builtin limits s context a = .ok ⟨output, [.union branches], a'⟩)
      (apart : ShareOnly [context, output] branches) : UnionOf limits branches
  | anyResource {context : Variable} {a : Allocator} {branches : List Group}
      (compiled : anyResource context a = .union branches)
      (apart : ShareOnly [context] branches) : UnionOf limits branches

/-- Where a scope comes from: a test compiled on its own from a context. What it asks about beside
the context does not stand around it. -/
def ScopeOf (limits : RecursionLimits) (around : Set Variable) (scope : Group) : Prop :=
  ∃ t context a a', enclosed (test .builtin limits t context) a = .ok ⟨.exist scope, [], a'⟩ ∧
    ∀ v ∈ scope.vars, v ≠ context → v ∉ around

-- Allocators that are several variables apart are told apart by name, not by computing them.
attribute [local irreducible] Allocator.fresh

private theorem mem_closings_vars {context output : Variable} {ems : List (Emission Variable)}
    {a : Allocator} {g : Group} {v : Variable} (hg : g ∈ (closings context output ems a).1)
    (hv : v ∈ g.vars) : (v = context ∨ v = output) ∨
      (∃ em ∈ ems, v ∈ em.elements.vars ++ [em.value]) ∨ a.Pending v := by
  obtain ⟨-, hgroups⟩ := closings_forall₂ context output ems a
  obtain ⟨em, hem, b, hab, -, rfl⟩ := exists_of_forall₂_right hgroups hg
  rw [Group.vars, Element.groupVars_append, List.mem_append] at hv
  rcases hv with hv | hv
  · exact .inr (.inl ⟨em, hem, List.mem_append_left _ hv⟩)
  · rcases mem_closing_vars hv with (hv | hv | rfl) | hv
    · exact .inl (.inl hv)
    · exact .inl (.inr hv)
    · exact .inr (.inl ⟨em, hem, by simp⟩)
    · exact .inr (.inr (hab v hv.1))

private theorem shareOnly_closings {context output : Variable} {ems : List (Emission Variable)}
    {a : Allocator} (hold : ∀ em ∈ ems, ∀ v ∈ em.elements.vars ++ [em.value], ¬ a.Pending v)
    (hapart : ems.Pairwise fun em em' => ∀ v ∈ em.elements.vars ++ [em.value],
      v ∈ em'.elements.vars ++ [em'.value] → v = context) :
    ShareOnly [context, output] (closings context output ems a).1 := by
  induction ems generalizing a with
  | nil => exact .nil
  | cons em rest ih =>
    obtain ⟨hhead, htail⟩ := List.pairwise_cons.1 hapart
    have hlater := precedes_closing context output em.value a
    refine List.pairwise_cons.2 ⟨fun g' hg' v hv hv' => ?_, ih (fun em' hem' v hv hp =>
      hold em' (List.mem_cons_of_mem _ hem') v hv (hlater v hp)) htail⟩
    have hclosed : (v = context ∨ v = output) ∨ v ∈ em.elements.vars ++ [em.value] ∨
        a.Spent (closing context output em.value a).2 v := by
      rw [Group.vars, Element.groupVars_append, List.mem_append] at hv
      rcases hv with hv | hv
      · exact .inr (.inl (List.mem_append_left _ hv))
      · rcases mem_closing_vars hv with (hv | hv | rfl) | hv
        · exact .inl (.inl hv)
        · exact .inl (.inr hv)
        · exact .inr (.inl (by simp))
        · exact .inr (.inr hv)
    rcases hclosed with hv | hv | hv
    · simpa using hv
    · rcases mem_closings_vars hg' hv' with hv' | ⟨em', hem', hv'⟩ | hv'
      · simpa using hv'
      · simp [hhead em' hem' v hv hv']
      · exact absurd (hlater v hv') (hold em List.mem_cons_self v hv)
    · rcases mem_closings_vars hg' hv' with hv' | ⟨em', hem', hv'⟩ | hv'
      · simpa using hv'
      · exact absurd hv.1 (hold em' (List.mem_cons_of_mem _ hem') v hv')
      · exact absurd hv' hv.2

private theorem shareOnly_anyResource {context : Variable} {a : Allocator} {branches : List Group}
    (h : anyResource context a = .union branches) : ShareOnly [context] branches := by
  cases h
  refine List.pairwise_pair.2 fun v hv hv' => ?_
  simp only [Group.vars, Element.groupVars, Element.vars, Element.ofTriple, TriplePattern.vars,
    Term.vars, List.append_nil, List.mem_append, List.mem_singleton] at hv hv' ⊢
  -- The second branch is made of variables that the first left to be given.
  have hpast : v = context ∨ ¬ a.fresh.2.fresh.2.Pending v := by
    rcases hv with (hv | rfl) | rfl
    · exact .inl hv
    · exact .inr fun hp => a.fresh_not_pending (a.fresh.2.precedes_fresh _ hp)
    · exact .inr a.fresh.2.fresh_not_pending
  rcases hv' with (rfl | rfl) | hv'
  · exact hpast.resolve_right (not_not_intro (Allocator.fresh_pending _))
  · exact hpast.resolve_right
      (not_not_intro (Allocator.precedes_fresh _ _ (Allocator.fresh_pending _)))
  · exact hv'

variable {limits : RecursionLimits}

private theorem orderly_closed {context output : Variable} {a a' b : Allocator}
    {em : Emission Variable} (h : Branch context output a b em)
    (hplaced : Placed (UnionOf limits) (ScopeOf limits) (· = context) (fun v => [v])
      (fun _ _ _ => True) a' em)
    {before around : Set Variable}
    (hbefore : ∀ v ∈ before,
      v ∈ Group.vars (em.elements ++ (closing context output em.value b).1) → v = context)
    (haround : ∀ v ∈ around, v ∈ Group.vars (em.elements ++ (closing context output em.value b).1) →
      v ∈ [context, output]) :
    Element.GroupOrderly (UnionOf limits) (ScopeOf limits) before around
      (em.elements ++ (closing context output em.value b).1) := by
  have houtput := h.not_mem_vars h.pending
  simp only [Group.vars, Element.groupVars_append, List.mem_append] at hbefore haround
  refine Element.groupOrderly_append (hplaced.elements _ _
    (fun v hv hmem => hbefore v hv (.inl hmem)) ?_) ?_
  · rintro v (hv | hv) hmem
    · rcases List.mem_pair.1 (haround v hv (.inl hmem)) with rfl | rfl
      · exact .inl rfl
      · exact absurd hmem houtput
    · rcases mem_closing_vars hv with (hv | rfl | rfl) | hv
      · exact .inl hv
      · exact absurd hmem houtput
      · exact .inr (by simp)
      · exact absurd hmem (h.not_mem_vars (h.later v hv.1))
  · have hnew : output ∉ before ∪ {v | v ∈ em.elements.vars} := by
      rintro (hv | hv)
      · refine h.output_ne_context (hbefore _ hv (.inr ?_))
        unfold closing
        split <;> simp [Element.groupVars, Element.vars]
      · exact houtput hv
    unfold closing
    split
    · refine ⟨⟨.anyResource rfl (shareOnly_anyResource rfl), ?_⟩,
        Element.groupOrderly_singleton ⟨?_, trivial⟩⟩
      · simp [Element.BranchOrderly, Element.GroupOrderly, Element.Orderly, Element.ofTriple]
      · rintro (hv | hv)
        · exact hnew hv
        · exact h.output_not_mem_anyResource hv
    · exact Element.groupOrderly_singleton ⟨hnew, trivial⟩

/-- Compiled alternatives are neat if their branches are, and if they are what a selector compiles
to. -/
theorem neat_alternatives {context : Variable} {branches : List (Emit Variable)}
    (hcompiled : ∀ a em, alternatives context branches a = .ok em →
      ∃ s, selector .builtin limits s context a = .ok em)
    (hstays : ∀ m ∈ branches, m.Stays (· = context) fun v => [v])
    (h : ∀ m ∈ branches, m.Neat (UnionOf limits) (ScopeOf limits) (· = context) (fun v => [v])
      fun _ _ _ => True) :
    (alternatives context branches).Neat (UnionOf limits) (ScopeOf limits) (· = context)
      (fun v => [v]) fun _ _ _ => True := by
  intro a em ha hem
  obtain ⟨htidy, hvalued⟩ := stays_alternatives hstays a em hem
  obtain ⟨ems, hems, groups, helements, hgroups⟩ := alternatives_branches hstays hem (ha _ rfl)
  have hshare : ShareOnly [context, em.value] groups := by
    obtain ⟨ems, a', hruns, rfl⟩ := alternatives_ok hem
    obtain ⟨hlater, hwithin, hapart⟩ := hruns.apart ha fun m hm b em hb hem =>
      (h m hm b em hb hem).toWithin
    cases helements
    refine shareOnly_closings (fun em hem v hv hp => ?_) hapart
    have hp' : a'.Pending v := a'.precedes_fresh v hp
    rcases hwithin em hem v hv with rfl | hspent
    · exact ha v rfl (hlater v hp')
    · exact hspent.2 hp'
  obtain ⟨value, elements, allocator⟩ := em
  subst helements
  refine ⟨⟨htidy.later, htidy.written, hvalued⟩, fun before around hbefore haround =>
    Element.groupOrderly_singleton ⟨?_, Element.branchOrderly_of_shareOnly hshare ?_ ?_⟩,
    fun _ _ _ _ => trivial⟩
  · obtain ⟨s, hs⟩ := hcompiled a _ hem
    exact .selector hs hshare
  · intro g hg v hv hvg
    have hmem : v ∈ Group.vars [.union groups] := by
      simpa [Group.vars, Element.groupVars, Element.vars] using mem_branchVars_iff.2 ⟨g, hg, hvg⟩
    simpa using haround v hv hmem
  · intro g hg around' haround'
    obtain ⟨em', hem', b, b', hab, hbranch, rfl⟩ := exists_of_forall₂_right hgroups hg
    obtain ⟨m, hm, c, hc, hac⟩ := exists_of_forall₂_right hems hem'
    have hplaced := h m hm c em' (fun v hv hp => ha v hv (hac v hp)) hc
    refine orderly_closed hbranch hplaced (fun v hv hvg => hbefore v hv ?_) haround'
    simpa [Group.vars, Element.groupVars, Element.vars] using mem_branchVars_iff.2 ⟨_, hg, hvg⟩

private theorem neat_unrolled {step : Variable → Emit Variable} {min bound : Nat}
    {context : Variable}
    (hcompiled : ∀ a em, unrolled step min bound context a = .ok em →
      ∃ s, selector .builtin limits s context a = .ok em)
    (hstays : ∀ c, (step c).Stays (· = c) fun v => [v])
    (h : ∀ c, (step c).Neat (UnionOf limits) (ScopeOf limits) (· = c) (fun v => [v])
      fun _ _ _ => True) :
    (unrolled step min bound context).Neat (UnionOf limits) (ScopeOf limits) (· = context)
      (fun v => [v]) fun _ _ _ => True := by
  unfold unrolled at hcompiled ⊢
  split
  · exact neat_iterate h min context
  · next hbounds =>
    rw [if_neg hbounds] at hcompiled
    refine neat_alternatives hcompiled ?_ ?_ <;> simp only [List.forall_mem_map]
    · exact fun i _ => stays_iterate hstays (min + i) context
    · exact fun i _ => neat_iterate h (min + i) context

private theorem scopeOf_enclosed {t : Test} {context : Variable} (a a' : Allocator) (inner : Group)
    (around : Set Variable)
    (h : enclosed (test .builtin limits t context) a = .ok ⟨.exist inner, [], a'⟩)
    (haround : ∀ v ∈ around, v ∈ Group.vars inner → v = context) :
    ScopeOf limits around inner :=
  ⟨t, context, a, a', h, fun v hv hne hmem => hne (haround v hmem hv)⟩

mutual

/-- What a selector compiles to is in order: its unions, its scopes and its bindings. -/
theorem neat_selector (limits : RecursionLimits) (s : Selector) (context : Variable) :
    (selector .builtin limits s context).Neat (UnionOf limits) (ScopeOf limits) (· = context)
      (fun v => [v]) fun _ _ _ => True := by
  cases s with
  | property p =>
    rw [selector, governed_selectorRule]
    exact neat_alongProperty p context
  | reverse p =>
    rw [selector, governed_selectorRule]
    exact neat_againstProperty p context
  | path left right =>
    rw [selector, governed_selectorRule]
    refine (neat_selector limits left context).bind fun middle _ =>
      (neat_selector limits right middle).mono ?_
    rintro v rfl
    simp
  | union left right =>
    have heq : selector .builtin limits (.union left right) context = alternatives context
        [selector .builtin limits left context, selector .builtin limits right context] := by
      rw [selector, governed_selectorRule]
    rw [heq]
    refine neat_alternatives (fun a em hem => ⟨.union left right, by rwa [heq]⟩) ?_ ?_
    · exact List.forall_mem_cons.2 ⟨stays_selector limits left context,
        List.forall_mem_singleton.2 (stays_selector limits right context)⟩
    · exact List.forall_mem_cons.2 ⟨neat_selector limits left context,
        List.forall_mem_singleton.2 (neat_selector limits right context)⟩
  | intersection left right =>
    rw [selector, governed_selectorRule]
    exact (neat_selector limits left context).bind fun l _ =>
      ((neat_selector limits right context).mono fun v => .inl).bind fun l' _ =>
      (neat_requireSame (.inl (.inr (by simp))) (.inr (by simp))).bind fun _ _ =>
      neat_done l (by simp) fun _ _ => trivial
  | recursive inner min max =>
    have heq : selector .builtin limits (.recursive inner min max) context =
        Emit.ofExcept (unrollingBound limits min max) >>= fun depth =>
          unrolled (fun c => selector .builtin limits inner c) min depth context := by
      rw [selector, governed_selectorRule]
    rw [heq]
    refine neat_ofExcept_bind fun depth hdepth => neat_unrolled (fun a em hem => ?_)
      (fun c => stays_selector limits inner c) fun c => neat_selector limits inner c
    refine ⟨.recursive inner min max, ?_⟩
    rw [heq, hdepth]
    exact (congrFun (pure_bind depth _) a).trans hem
  | grouping inner =>
    rw [selector, governed_selectorRule]
    exact neat_selector limits inner context
  | testing delegate t =>
    rw [selector, governed_selectorRule]
    refine (neat_selector limits delegate context).bind fun value _ => ?_
    rw [← bind_assoc]
    refine (neat_required ((neat_test limits t value).mono ?_)).bind fun _ _ =>
      neat_done context (by simp) fun _ _ => trivial
    rintro v rfl
    simp
  | function name args =>
    rw [selector, governed_selectorRule]
    refine neat_ofExcept_bind fun f hf => ?_
    refine (neat_operands limits args context).bind fun values hplain => ?_
    refine neat_ofExcept_bind fun e he => ?_
    obtain ⟨b, rfl⟩ := Registry.exists_call hf he
    refine neat_bindFresh (fun v hv => .inr ?_) (Expr.plain_call hplain)
    rwa [Expr.vars] at hv
  | self =>
    rw [selector, governed_selectorRule]
    exact neat_done context (by simp) fun _ _ => trivial
  | wildcard =>
    rw [selector, governed_selectorRule]
    exact neat_alongAny context
  | constant n =>
    rw [selector, governed_selectorRule]
    exact neat_bindFresh (by simp [Expr.vars, Term.vars]) (Expr.plain_term _)

private theorem neat_operands (limits : RecursionLimits) (args : List Selector)
    (context : Variable) :
    (operands .builtin limits args context).Neat (UnionOf limits) (ScopeOf limits) (· = context)
      Expr.listVars fun _ _ es => ∀ e ∈ es, e.Plain (UnionOf limits) (ScopeOf limits) := by
  cases args with
  | nil =>
    rw [operands]
    exact neat_done [] (by simp [Expr.listVars]) (by simp)
  | cons s rest =>
    rw [operands]
    refine (neat_asOperand (neat_selector limits s context)).bind fun e he =>
      ((neat_operands limits rest context).mono fun v => .inl).bind fun more hmore =>
      neat_done _ ?_ fun _ _ => List.forall_mem_cons.2 ⟨he, hmore⟩
    intro v hv
    rcases List.mem_append.1 hv with hv | hv
    · exact .inl (.inr hv)
    · exact .inr hv

private theorem neat_test (limits : RecursionLimits) (t : Test) (context : Variable) :
    (test .builtin limits t context).Neat (UnionOf limits) (ScopeOf limits) (· = context)
      Expr.vars (Expr.Orderly (UnionOf limits) (ScopeOf limits)) := by
  cases t with
  | isA type =>
    by_cases htype : ∃ i, type = .constant (.iri i)
    · obtain ⟨i, rfl⟩ := htype
      rw [test, governed_testRule]
      refine (neat_writeTriple ?_).bind fun _ _ =>
        neat_done _ (by simp [Expr.vars]) fun _ _ => trivial
      simp [TriplePattern.vars, Term.vars, Term.iri]
    · rw [test, governed_testRule]
      · refine neat_fresh.bind fun found _ => (neat_writeTriple ?_).bind fun _ _ =>
          ((neat_asOperand (neat_selector limits type context)).mono fun v hv =>
            .inl (.inl hv)).bind fun expected hexpected => neat_done _ (fun v hv => ?_)
            (Expr.plain_compare .eq (Expr.plain_term _) hexpected)
        · simp [TriplePattern.vars, Term.vars, Term.iri]
        · rcases List.mem_append.1 hv with hv | hv
          · exact .inl (.inl (.inr hv))
          · exact .inr hv
      · exact fun i hi => htype ⟨i, hi⟩
  | and left right =>
    rw [test, governed_testRule]
    exact neat_joined mem_vars_both joins_both
      (neat_enclosed (neat_test limits left context) scopeOf_enclosed)
      (neat_enclosed (neat_test limits right context) scopeOf_enclosed)
  | or left right =>
    rw [test, governed_testRule]
    exact neat_joined mem_vars_oneOf joins_oneOf
      (neat_enclosed (neat_test limits left context) scopeOf_enclosed)
      (neat_enclosed (neat_test limits right context) scopeOf_enclosed)
  | not inner =>
    rw [test, governed_testRule]
    exact (neat_enclosed (neat_test limits inner context) scopeOf_enclosed).map
      (fun e => by rw [Expr.vars]) fun _ _ _ => id
  | comparison op left right =>
    rw [test, governed_testRule]
    exact neat_compared op (neat_selector limits left context) (neat_selector limits right context)
  | pathEquality left right =>
    rw [test, governed_testRule]
    exact neat_compared .eq (neat_selector limits left context)
      (neat_selector limits right context)
  | pathExists path =>
    rw [test, governed_testRule]
    exact (neat_selector limits path context).bind fun _ _ =>
      neat_done _ (by simp [Expr.vars]) fun _ _ => trivial
  | language tag =>
    rw [test, governed_testRule]
    refine neat_done _ ?_ (Expr.plain_call (List.forall_mem_cons.2 ⟨Expr.plain_call
      (List.forall_mem_singleton.2 (Expr.plain_term _)),
      List.forall_mem_singleton.2 (Expr.plain_term _)⟩))
    simp [languageCondition, Expr.vars, Expr.listVars, Expr.var, Expr.literal, Term.vars,
      Term.literal]
  | datatype type =>
    rw [test, governed_testRule]
    refine neat_done _ ?_ (Expr.plain_compare .eq (Expr.plain_call
      (List.forall_mem_singleton.2 (Expr.plain_term _))) (Expr.plain_term _))
    simp [datatypeCondition, Expr.equals, Expr.vars, Expr.listVars, Expr.var, Term.vars, Term.iri]

end

end Compile

open Compile

private theorem Constraint.plain_condition {union : List Group → Prop}
    {scope : Set Variable → Group → Prop} (c : Constraint) (value : Variable) :
    (c.condition value).Plain union scope := by
  unfold Constraint.condition
  split
  · exact Expr.plain_compare _ (Expr.plain_term _) (Expr.plain_term _)
  · exact Expr.plain_call (List.forall_mem_cons.2 ⟨Expr.plain_call
      (List.forall_mem_singleton.2 (Expr.plain_term _)),
      List.forall_mem_singleton.2 (Expr.plain_term _)⟩)

private theorem Session.neat_emitOrder {s : Session} (hregistry : s.registry = .builtin)
    (key : Selector × Direction) :
    (s.emitOrder key).Neat (UnionOf s.settings.recursion) (ScopeOf s.settings.recursion)
      (· = s.root) (fun k => [k.target]) fun _ _ _ => True := by
  intro a em ha hem
  obtain ⟨first, hfirst, rfl⟩ := Session.emitOrder_ok hem
  rw [hregistry] at hfirst
  have hplaced := neat_selector s.settings.recursion key.1 s.root a first ha hfirst
  cases hempty : first.elements with
  | nil =>
    exact ⟨⟨hplaced.later, by simp [Group.vars, Element.groupVars], hplaced.valued⟩,
      fun _ _ _ _ => trivial, fun _ _ _ _ => trivial⟩
  | cons e rest =>
    have hvars : Group.vars [.optional (e :: rest)] = Group.vars first.elements := by
      simp [Group.vars, Element.groupVars, Element.vars, hempty]
    refine ⟨⟨hplaced.later, ?_, hplaced.valued⟩, fun before around hbefore haround => ?_,
      fun _ _ _ _ => trivial⟩
    · simpa only [List.isEmpty_cons, Bool.false_eq_true, if_false, hvars] using hplaced.written
    · simp only [List.isEmpty_cons, Bool.false_eq_true, if_false, hvars] at hbefore haround ⊢
      refine Element.groupOrderly_singleton ?_
      rw [Element.Orderly, ← hempty]
      exact hplaced.elements before around hbefore haround

/-- The variables of a query, as often as they stand there. -/
def Query.vars (q : Query) : List Variable :=
  q.projection :: (q.pattern.vars ++ q.orderBy.map OrderKey.target)

private theorem Settings.wellNamed_of_checkName {field name : String}
    (h : Settings.checkName field name = .ok ()) : Variable.WellNamed ⟨name⟩ := by
  unfold checkName at h
  split at h
  · cases h
  · next hempty =>
    split at h
    · next hall => exact ⟨by simpa using hempty, hall⟩
    · cases h

theorem Settings.wellNamed_of_validate {s : Settings} (h : s.validate = .ok ()) :
    Variable.WellNamed ⟨s.resultVariable⟩ ∧ Variable.WellNamed ⟨s.variableStem⟩ := by
  obtain ⟨_, hresult, hrest⟩ := exists_of_bind_ok h
  obtain ⟨_, hstem, _⟩ := exists_of_bind_ok hrest
  exact ⟨wellNamed_of_checkName hresult, wellNamed_of_checkName hstem⟩

theorem Allocator.wellNamed_of_pending {a : Allocator} (hstem : Variable.WellNamed ⟨a.stem⟩)
    {v : Variable} (hv : a.Pending v) : v.WellNamed := by
  obtain ⟨i, rfl⟩ := hv
  obtain ⟨n, -, heq, -⟩ := a.nth_spec i
  rw [heq, numbered]
  refine ⟨fun h => hstem.1 (String.append_eq_empty_iff.1 h).1, ?_⟩
  rw [String.toList_append, List.all_append, hstem.2, Bool.true_and, List.all_eq_true]
  intro c hc
  rw [Nat.toString_eq_repr, Nat.toList_repr] at hc
  have hdigit := Nat.isDigit_of_mem_toDigits (by decide) (by decide) hc
  simp [Settings.isVariableChar, Char.isAlphanum, hdigit]

/-- The variables of the query are the root and those that were taken for it. The contributions
share the root only, and the unions, scopes and bindings of the pattern are in order. -/
structure Session.Assembly.Hygienic {s : Session} {q : Query} (p : s.Assembly q) : Prop where
  named : ∀ v ∈ q.vars,
    (v = s.root ∨ (Allocator.ofSettings s.settings).Spent p.last v) ∧ v.WellNamed
  apart : ShareOnly [s.root] p.parts
  orderly : Element.GroupOrderly (UnionOf s.settings.recursion) (ScopeOf s.settings.recursion) ∅
    {v | v = q.projection ∨ v ∈ q.orderBy.map OrderKey.target} q.pattern

private theorem Session.neat_criterion {s : Session} (hregistry : s.registry = .builtin)
    (k : Criterion) :
    (k.emit s.registry s.settings.recursion s.root).Neat (UnionOf s.settings.recursion)
      (ScopeOf s.settings.recursion) (· = s.root) (fun _ => []) fun _ _ _ => True := by
  rw [hregistry]
  refine (neat_selector s.settings.recursion k.selector s.root).bind fun value _ => ?_
  cases k.constraint with
  | none => exact neat_done () (by simp) fun _ _ => trivial
  | some c =>
    refine neat_write (fun v hv => .inr ?_) (c.plain_condition value)
    rwa [Element.vars, Constraint.vars_condition] at hv

theorem Session.neat_emit {s : Session} (hregistry : s.registry = .builtin) :
    s.emit.Neat (UnionOf s.settings.recursion) (ScopeOf s.settings.recursion) (· = s.root)
      (fun keys => keys.flatMap fun k => [k.target]) fun _ _ _ => True := by
  have htype : ∀ t, (emitType s.root t).Neat (UnionOf s.settings.recursion)
      (ScopeOf s.settings.recursion) (· = s.root) (fun _ => []) fun _ _ _ => True := fun t =>
    neat_writeTriple (by simp [TriplePattern.vars, Term.vars, Term.iri])
  exact (neat_inOrder (List.forall_mem_map.2 fun t _ => htype t)).bind fun _ _ => .bind
    ((neat_inOrder (List.forall_mem_map.2 fun k _ => neat_criterion hregistry k)).mono
      fun v => .inl) fun _ _ =>
    (neat_inOrder (List.forall_mem_map.2 fun key _ => neat_emitOrder hregistry key)).mono
      fun v hv => .inl (.inl hv)

private theorem Session.Assembly.shareOnly_parts {s : Session} {q : Query} (p : s.Assembly q)
    (hregistry : s.registry = .builtin) : ShareOnly [s.root] p.parts :=
  p.shareOnly (hregistry ▸ Registry.confined_builtin)

/-- The query of a session with the built-in rules is hygienic. -/
theorem Session.build_hygienic {s : Session} {q : Query} (hregistry : s.registry = .builtin)
    (hsettings : s.settings.validate = .ok ()) (hbuild : s.build = .ok q) :
    ∃ p : s.Assembly q, p.Hygienic := by
  obtain ⟨em, hem, hq⟩ := exists_of_bind_ok hbuild
  have hroot : ∀ v, v = s.root → ¬ (Allocator.ofSettings s.settings).Pending v := by
    rintro v rfl
    exact Allocator.root_not_pending (.ofSettings s.settings)
  have hplaced := neat_emit hregistry _ em hroot hem
  have hnamed : ∀ v, v = s.root ∨ (Allocator.ofSettings s.settings).Spent em.allocator v →
      v.WellNamed := by
    obtain ⟨hresult, hstem⟩ := Settings.wellNamed_of_validate hsettings
    rintro v (rfl | hv)
    · exact hresult
    · exact Allocator.wellNamed_of_pending hstem hv.1
  have htargets : ∀ v, v ∈ em.value.map OrderKey.target ↔
      v ∈ em.value.flatMap fun k => [k.target] := fun v => by simp [eq_comm]
  obtain rfl : _ = q := Except.ok.inj hq
  obtain ⟨p, hp⟩ : ∃ p : s.Assembly ⟨s.root, s.graph, em.elements, em.value, s.limit, s.offset,
      s.settings.distinct⟩, p.last = em.allocator := exists_assembly hem rfl
  refine ⟨p, fun v hv => ?_, p.shareOnly_parts hregistry,
    hplaced.elements _ _ (by simp) fun v hv _ => hv.imp_right (htargets v).1⟩
  have hv' : v = s.root ∨ (Allocator.ofSettings s.settings).Spent em.allocator v := by
    rcases List.mem_cons.1 hv with rfl | hv
    · exact .inl rfl
    · rcases List.mem_append.1 hv with hv | hv
      · exact hplaced.written v hv
      · exact hplaced.valued v ((htargets v).1 hv)
  exact ⟨hp ▸ hv', hnamed v hv'⟩

/-- Two criteria and an ordering, with a union, a repetition, scopes and bindings. -/
theorem Session.build_hygienic_two_criteria :
    let p : Iri := ⟨"http://e/p"⟩
    let s : Session := { Session.start .builtin {} none with
      types := [⟨"http://e/T"⟩]
      criteria := [⟨.union .self (.recursive (.property p) 0 (some 1)), none⟩,
        ⟨.testing (.property p) (.or (.pathExists (.function "str" [.reverse p]))
          (.not (.isA (.constant (.iri ⟨"http://e/T"⟩))))), none⟩]
      orderBy := [(.path (.property p) .wildcard, .descending)] }
    ∃ q, s.build = .ok q ∧ ∃ p : s.Assembly q, p.Hygienic := by
  intro p s
  obtain ⟨q, hq⟩ := exists_ok_of_isOk (by decide +kernel : s.build.isOk = true)
  exact ⟨q, hq, build_hygienic rfl (by decide +kernel) hq⟩

end GraphPath
