import GraphPath.Proofs.Alternatives

/-!
# Compiling with other variables

What is compiled does not depend on the names of the variables it takes: from another allocator the
same group is compiled with its variables renamed, and matches the same values. The renaming sends
each variable that the one allocator gives to the variable that the other gives in its turn.
-/

namespace GraphPath

/-- The second allocator gives the renamed variables of the first, all of them in a set. -/
structure Allocator.Tracks (ρ : Variable → Variable) (V : Set Variable) (a b : Allocator) :
    Prop where
  renamed : ∀ n, b.nth n = ρ (a.nth n)
  mem : ∀ n, a.nth n ∈ V

private theorem Allocator.Tracks.fresh {ρ : Variable → Variable} {V : Set Variable}
    {a b : Allocator} (h : a.Tracks ρ V b) : a.fresh.2.Tracks ρ V b.fresh.2 :=
  ⟨fun n => h.renamed (n + 1), fun n => h.mem (n + 1)⟩

/-- An emission with other variables. -/
structure Emission.Renamed {α : Type} (ρ : Variable → Variable) (V : Set Variable)
    (R : α → α → Prop) (em em' : Emission α) : Prop where
  value : R em.value em'.value
  elements : em'.elements = Element.renameAll ρ em.elements
  allocator : em.allocator.Tracks ρ V em'.allocator

/-- Where the first step succeeds, the second does with other variables. -/
def Emit.Mimics {α : Type} (ρ : Variable → Variable) (V : Set Variable) (R : α → α → Prop)
    (m m' : Emit α) : Prop :=
  ∀ a b em, a.Tracks ρ V b → m a = .ok em → ∃ em', m' b = .ok em' ∧ em.Renamed ρ V R em'

/-- A variable of the set, renamed. -/
def Variable.Renamed (ρ : Variable → Variable) (V : Set Variable) (v v' : Variable) : Prop :=
  v ∈ V ∧ v' = ρ v

namespace Emit

variable {α β : Type} {ρ : Variable → Variable} {V : Set Variable} {R : α → α → Prop}
  {S : β → β → Prop}

theorem mimics_done {x x' : α} (h : R x x') : Mimics ρ V R (done x) (done x') := by
  rintro a b em htracks ⟨⟩
  exact ⟨_, rfl, h, rfl, htracks⟩

theorem Mimics.bind {m m' : Emit α} {f f' : α → Emit β} (hm : Mimics ρ V R m m')
    (hf : ∀ x x', R x x' → Mimics ρ V S (f x) (f' x')) : Mimics ρ V S (m >>= f) (m' >>= f') := by
  intro a b em htracks hem
  obtain ⟨first, second, hfirst, hsecond, rfl⟩ := bind_ok hem
  obtain ⟨first', hfirst', hren⟩ := hm a b first htracks hfirst
  obtain ⟨second', hsecond', hren'⟩ :=
    hf _ _ hren.value first.allocator first'.allocator second hren.allocator hsecond
  refine ⟨_, bind_eq_ok hfirst' hsecond', hren'.value, ?_, hren'.allocator⟩
  rw [Element.renameAll_append, hren.elements, hren'.elements]

private theorem mimics_fresh : Mimics ρ V (Variable.Renamed ρ V) fresh fresh := by
  intro a b em htracks hem
  obtain rfl := fresh_ok hem
  exact ⟨_, fresh_apply b, ⟨htracks.mem 0, htracks.renamed 0⟩, rfl, htracks.fresh⟩

theorem mimics_write (e : Element) :
    Mimics ρ V (fun _ _ => True) (write e) (write (e.rename ρ)) := by
  rintro a b em htracks ⟨⟩
  exact ⟨_, rfl, trivial, rfl, htracks⟩

private theorem mimics_ofExcept_bind {x : Except CompileError β} {f f' : β → Emit α}
    (h : ∀ y, x = .ok y → Mimics ρ V R (f y) (f' y)) :
    Mimics ρ V R (ofExcept x >>= f) (ofExcept x >>= f') := by
  intro a b em htracks hem
  obtain ⟨y, rfl, hy⟩ := ofExcept_bind_ok hem
  obtain ⟨em', hem', hren⟩ := h y rfl a b em htracks hy
  exact ⟨em', by rw [← hem']; exact congrFun (done_andThen y f') b, hren⟩

theorem Mimics.captured {m m' : Emit α} (h : Mimics ρ V R m m') :
    Mimics ρ V (fun x x' => R x.1 x'.1 ∧ x'.2 = Element.renameAll ρ x.2) m.captured
      m'.captured := by
  intro a b em htracks hem
  obtain ⟨inner, hinner, rfl⟩ := captured_ok hem
  obtain ⟨inner', hinner', hren⟩ := h a b inner htracks hinner
  refine ⟨⟨(inner'.value, inner'.elements), [], inner'.allocator⟩, ?_,
    ⟨hren.value, hren.elements⟩, rfl, hren.allocator⟩
  simp only [Emit.captured, hinner']

theorem mimics_inOrder {ms ms' : List (Emit α)} (h : List.Forall₂ (Mimics ρ V R) ms ms') :
    Mimics ρ V (List.Forall₂ R) (inOrder ms) (inOrder ms') := by
  induction h with
  | nil => exact mimics_done .nil
  | cons hm _ ih =>
    exact hm.bind fun x x' hx => ih.bind fun xs xs' hxs => mimics_done (.cons hx hxs)

private theorem mimics_iterate {f : Variable → Emit Variable}
    (h : ∀ v v', Variable.Renamed ρ V v v' → Mimics ρ V (Variable.Renamed ρ V) (f v) (f v'))
    (n : Nat) {v v' : Variable} (hv : Variable.Renamed ρ V v v') :
    Mimics ρ V (Variable.Renamed ρ V) (iterate f n v) (iterate f n v') := by
  induction n generalizing v v' with
  | zero => exact mimics_done hv
  | succ n ih => exact (h v v' hv).bind fun next next' hnext => ih hnext

end Emit

namespace Compile

open Emit

variable {ρ : Variable → Variable} {V : Set Variable}

private theorem renamed_eq_iff (hρ : Set.InjOn ρ V) {v v' w w' : Variable}
    (hv : Variable.Renamed ρ V v v') (hw : Variable.Renamed ρ V w w') : v' = w' ↔ v = w := by
  rw [hv.2, hw.2]
  exact hρ.eq_iff hv.1 hw.1

private theorem mimics_writeAnyResource {context context' : Variable}
    (hc : Variable.Renamed ρ V context context') :
    Mimics ρ V (fun _ _ => True) (writeAnyResource context) (writeAnyResource context') := by
  refine mimics_fresh.bind fun p p' hp => mimics_fresh.bind fun o o' ho => mimics_fresh.bind
    fun s s' hs => mimics_fresh.bind fun q q' hq => ?_
  rw [hc.2, hp.2, ho.2, hs.2, hq.2]
  exact mimics_write (.union _)

private theorem mimics_closeBranch (hρ : Set.InjOn ρ V) {context context' output output' : Variable}
    (hc : Variable.Renamed ρ V context context') (ho : Variable.Renamed ρ V output output')
    {branch branch' : Variable × Group} (hvalue : Variable.Renamed ρ V branch.1 branch'.1)
    (hgroup : branch'.2 = Element.renameAll ρ branch.2) :
    Mimics ρ V (fun g g' => g' = Element.renameAll ρ g) (closeBranch context output branch)
      (closeBranch context' output' branch') := by
  have hbind : Mimics ρ V (fun _ _ => True) (write (.bind (.var branch.1) output))
      (write (.bind (.var branch'.1) output')) := by
    rw [hvalue.2, ho.2]
    exact mimics_write (.bind (.var branch.1) output)
  have hclosing : Mimics ρ V (fun _ _ => True)
      (if branch.1 = context then writeAnyResource context >>= fun _ =>
        write (.bind (.var branch.1) output) else write (.bind (.var branch.1) output))
      (if branch'.1 = context' then writeAnyResource context' >>= fun _ =>
        write (.bind (.var branch'.1) output') else write (.bind (.var branch'.1) output')) := by
    rw [if_congr (renamed_eq_iff hρ hvalue hc) rfl rfl]
    split
    · exact (mimics_writeAnyResource hc).bind fun _ _ _ => hbind
    · exact hbind
  refine hclosing.captured.bind fun x x' hx => mimics_done ?_
  rw [hgroup, hx.2, Element.renameAll_append]

private theorem renameBranches_of_forall₂ {groups groups' : List Group}
    (h : List.Forall₂ (fun g g' => g' = Element.renameAll ρ g) groups groups') :
    groups' = Element.renameBranches ρ groups := by
  induction h with
  | nil => rfl
  | cons hg _ ih => rw [Element.renameBranches, hg, ih]

private theorem mimics_alternatives (hρ : Set.InjOn ρ V) {context context' : Variable}
    (hc : Variable.Renamed ρ V context context') {branches branches' : List (Emit Variable)}
    (h : List.Forall₂ (Mimics ρ V (Variable.Renamed ρ V)) branches branches') :
    Mimics ρ V (Variable.Renamed ρ V) (alternatives context branches)
      (alternatives context' branches') := by
  have hcaptured := List.forall₂_map_left_iff.2 (List.forall₂_map_right_iff.2
    (h.imp fun _ _ hm => hm.captured))
  refine (mimics_inOrder hcaptured).bind fun compiled compiled' hcompiled =>
    mimics_fresh.bind fun output output' ho => ?_
  have hclosed : List.Forall₂ (Mimics ρ V fun g g' => g' = Element.renameAll ρ g)
      (compiled.map (closeBranch context output)) (compiled'.map (closeBranch context' output')) :=
    List.forall₂_map_left_iff.2 (List.forall₂_map_right_iff.2
      (hcompiled.imp fun branch branch' hb => mimics_closeBranch hρ hc ho hb.1 hb.2))
  refine (mimics_inOrder hclosed).bind fun groups groups' hgroups => ?_
  rw [renameBranches_of_forall₂ hgroups]
  exact (mimics_write (.union groups)).bind fun _ _ _ => mimics_done ho

private theorem mimics_bindFresh (e : Expr) :
    Mimics ρ V (Variable.Renamed ρ V) (bindFresh e) (bindFresh (e.rename ρ)) := by
  refine mimics_fresh.bind fun output output' ho => ?_
  rw [ho.2]
  exact (mimics_write (.bind e output)).bind fun _ _ _ => mimics_done ⟨ho.1, rfl⟩

private theorem isAlways_rename (e : Expr) : (e.rename ρ).isAlways = e.isAlways := by
  cases e <;> rfl

private theorem mimics_require (e : Expr) :
    Mimics ρ V (fun _ _ => True) (require e) (require (e.rename ρ)) := by
  unfold require
  rw [isAlways_rename]
  split
  · exact mimics_done trivial
  · exact mimics_write (.filter e)

private theorem mimics_requireSame (hρ : Set.InjOn ρ V) {l l' r r' : Variable}
    (hl : Variable.Renamed ρ V l l') (hr : Variable.Renamed ρ V r r') :
    Mimics ρ V (fun _ _ => True) (requireSame l r) (requireSame l' r') := by
  unfold requireSame
  rw [if_congr (renamed_eq_iff hρ hl hr) rfl rfl]
  split
  · exact mimics_done trivial
  · rw [hl.2, hr.2]
    exact mimics_write (.filter (.equals (.var l) (.var r)))

theorem mimics_enclosed {m m' : Emit Expr} (h : Mimics ρ V (fun e e' => e' = e.rename ρ) m m') :
    Mimics ρ V (fun e e' => e' = e.rename ρ) (enclosed m) (enclosed m') := by
  refine h.captured.bind ?_
  rintro ⟨e, scope⟩ ⟨e', scope'⟩ ⟨rfl, rfl⟩
  dsimp only
  have hempty : (Element.renameAll ρ scope).isEmpty = scope.isEmpty := by cases scope <;> rfl
  rw [hempty, isAlways_rename]
  split
  · exact mimics_done rfl
  · refine mimics_done ?_
    split
    · rfl
    · rw [Expr.rename, Element.renameAll_append]
      rfl

private theorem mimics_asOperand (s : Selector) {m m' : Emit Variable}
    (h : Mimics ρ V (Variable.Renamed ρ V) m m') :
    Mimics ρ V (fun e e' => e' = e.rename ρ) (asOperand s m) (asOperand s m') := by
  have hvar : Mimics ρ V (fun e e' => e' = Expr.rename ρ e) (m >>= fun v => pure (.var v))
      (m' >>= fun v => pure (.var v)) :=
    h.bind fun v v' hv => mimics_done (by rw [hv.2]; rfl)
  cases s with
  | constant n => exact mimics_done rfl
  | _ => exact hvar

private theorem mimics_unrolled (hρ : Set.InjOn ρ V) {step : Variable → Emit Variable}
    (h : ∀ v v', Variable.Renamed ρ V v v' → Mimics ρ V (Variable.Renamed ρ V) (step v) (step v'))
    (min bound : Nat) {context context' : Variable}
    (hc : Variable.Renamed ρ V context context') :
    Mimics ρ V (Variable.Renamed ρ V) (unrolled step min bound context)
      (unrolled step min bound context') := by
  unfold unrolled
  split
  · exact mimics_iterate h min hc
  · refine mimics_alternatives hρ hc (List.forall₂_map_left_iff.2 (List.forall₂_map_right_iff.2 ?_))
    exact List.forall₂_same.2 fun i _ => mimics_iterate h (min + i) hc

private theorem mimics_alongProperty (p : Iri) {context context' : Variable}
    (hc : Variable.Renamed ρ V context context') :
    Mimics ρ V (Variable.Renamed ρ V) (alongProperty p context) (alongProperty p context') := by
  refine mimics_fresh.bind fun output output' ho => ?_
  rw [hc.2, ho.2]
  exact (mimics_write (.ofTriple _ _ _)).bind fun _ _ _ => mimics_done ⟨ho.1, rfl⟩

private theorem mimics_againstProperty (p : Iri) {context context' : Variable}
    (hc : Variable.Renamed ρ V context context') :
    Mimics ρ V (Variable.Renamed ρ V) (againstProperty p context)
      (againstProperty p context') := by
  refine mimics_fresh.bind fun output output' ho => ?_
  rw [hc.2, ho.2]
  exact (mimics_write (.ofTriple _ _ _)).bind fun _ _ _ => mimics_done ⟨ho.1, rfl⟩

private theorem mimics_alongAny {context context' : Variable}
    (hc : Variable.Renamed ρ V context context') :
    Mimics ρ V (Variable.Renamed ρ V) (alongAny context) (alongAny context') := by
  refine mimics_fresh.bind fun p p' hp => mimics_fresh.bind fun output output' ho => ?_
  rw [hc.2, hp.2, ho.2]
  exact (mimics_write (.ofTriple _ _ _)).bind fun _ _ _ => mimics_done ⟨ho.1, rfl⟩

private theorem length_renameAll (args : List Expr) :
    (Expr.renameAll ρ args).length = args.length := by
  induction args with
  | nil => rfl
  | cons e rest ih => simp [Expr.renameAll, ih]

private theorem rename_both (l r : Expr) :
    (Expr.both l r).rename ρ = .both (l.rename ρ) (r.rename ρ) := by
  cases l <;> cases r <;> rfl

private theorem rename_oneOf (l r : Expr) :
    (Expr.oneOf l r).rename ρ = .oneOf (l.rename ρ) (r.rename ρ) := by
  cases l <;> cases r <;> rfl

private theorem mimics_function (f : PathFunction) (name : String) (args : List Expr) :
    Mimics ρ V (Variable.Renamed ρ V) (ofExcept (f.apply name args) >>= bindFresh)
      (ofExcept (f.apply name (Expr.renameAll ρ args)) >>= bindFresh) := by
  unfold PathFunction.apply
  rw [length_renameAll]
  split
  · exact mimics_bindFresh (.call f.builtin args)
  · rintro a b em - ⟨⟩

private theorem mimics_compared (op : Comparison) {left right : Selector}
    {m m' n n' : Emit Variable} (hm : Mimics ρ V (Variable.Renamed ρ V) m m')
    (hn : Mimics ρ V (Variable.Renamed ρ V) n n') :
    Mimics ρ V (fun e e' => e' = Expr.rename ρ e) (do
      let l ← asOperand left m
      let r ← asOperand right n
      return .compare op l r) (do
      let l ← asOperand left m'
      let r ← asOperand right n'
      return .compare op l r) := by
  refine (mimics_asOperand left hm).bind fun l l' hl => (mimics_asOperand right hn).bind
    fun r r' hr => mimics_done ?_
  rw [hl, hr]
  rfl

mutual

/-- A selector compiles to the same group from other variables. -/
theorem mimics_selector (hρ : Set.InjOn ρ V) (limits : RecursionLimits) (s : Selector)
    {context context' : Variable} (hc : Variable.Renamed ρ V context context') :
    Mimics ρ V (Variable.Renamed ρ V) (selector .builtin limits s context)
      (selector .builtin limits s context') := by
  cases s with
  | property p =>
    simp only [selector, governed_selectorRule]
    exact mimics_alongProperty p hc
  | reverse p =>
    simp only [selector, governed_selectorRule]
    exact mimics_againstProperty p hc
  | path left right =>
    simp only [selector, governed_selectorRule]
    exact (mimics_selector hρ limits left hc).bind fun _ _ hm => mimics_selector hρ limits right hm
  | union left right =>
    simp only [selector, governed_selectorRule]
    exact mimics_alternatives hρ hc (.cons (mimics_selector hρ limits left hc)
      (.cons (mimics_selector hρ limits right hc) .nil))
  | intersection left right =>
    simp only [selector, governed_selectorRule]
    exact (mimics_selector hρ limits left hc).bind fun l l' hl =>
      (mimics_selector hρ limits right hc).bind fun r r' hr =>
        (mimics_requireSame hρ hl hr).bind fun _ _ _ => mimics_done hl
  | recursive inner min max =>
    simp only [selector, governed_selectorRule]
    exact mimics_ofExcept_bind fun depth _ => mimics_unrolled hρ
      (fun _ _ hv => mimics_selector hρ limits inner hv) min depth hc
  | grouping inner =>
    simp only [selector, governed_selectorRule]
    exact mimics_selector hρ limits inner hc
  | testing delegate t =>
    simp only [selector, governed_selectorRule]
    refine (mimics_selector hρ limits delegate hc).bind fun v v' hv =>
      (mimics_test hρ limits t hv).bind fun e e' he => ?_
    rw [he]
    exact (mimics_require e).bind fun _ _ _ => mimics_done hc
  | function name args =>
    simp only [selector, governed_selectorRule]
    refine mimics_ofExcept_bind fun f hf => (mimics_operands hρ limits args hc).bind
      fun values values' hvalues => ?_
    obtain ⟨g, -, rfl⟩ := Registry.builtin_function_ok hf
    rw [hvalues]
    exact mimics_function g name values
  | self =>
    simp only [selector, governed_selectorRule]
    exact mimics_done hc
  | wildcard =>
    simp only [selector, governed_selectorRule]
    exact mimics_alongAny hc
  | constant n =>
    simp only [selector, governed_selectorRule]
    exact mimics_bindFresh (.term (.node n))

private theorem mimics_operands (hρ : Set.InjOn ρ V) (limits : RecursionLimits)
    (args : List Selector) {context context' : Variable}
    (hc : Variable.Renamed ρ V context context') :
    Mimics ρ V (fun es es' => es' = Expr.renameAll ρ es) (operands .builtin limits args context)
      (operands .builtin limits args context') := by
  cases args with
  | nil =>
    simp only [operands]
    exact mimics_done rfl
  | cons s rest =>
    simp only [operands]
    refine (mimics_asOperand s (mimics_selector hρ limits s hc)).bind fun e e' he =>
      (mimics_operands hρ limits rest hc).bind fun es es' hes => mimics_done ?_
    rw [he, hes, Expr.renameAll]

theorem mimics_test (hρ : Set.InjOn ρ V) (limits : RecursionLimits) (t : Test)
    {context context' : Variable} (hc : Variable.Renamed ρ V context context') :
    Mimics ρ V (fun e e' => e' = e.rename ρ) (test .builtin limits t context)
      (test .builtin limits t context') := by
  cases t with
  | isA type =>
    by_cases htype : ∃ i, type = .constant (.iri i)
    · obtain ⟨i, rfl⟩ := htype
      simp only [test, governed_testRule]
      rw [hc.2]
      exact (mimics_write (.ofTriple _ _ _)).bind fun _ _ _ => mimics_done rfl
    · rw [test, test, governed_testRule, governed_testRule]
      · refine mimics_fresh.bind fun found found' hf => ?_
        have hwrite : Mimics ρ V (fun _ _ => True)
            (writeTriple (.var context) (.iri Iri.rdfType) (.var found))
            (writeTriple (.var context') (.iri Iri.rdfType) (.var found')) := by
          rw [hc.2, hf.2]
          exact mimics_write (.ofTriple _ _ _)
        refine hwrite.bind fun _ _ _ => (mimics_asOperand type
          (mimics_selector hρ limits type hc)).bind fun e e' he => mimics_done ?_
        rw [he, hf.2]
        rfl
      · exact fun i hi => htype ⟨i, hi⟩
      · exact fun i hi => htype ⟨i, hi⟩
  | and left right =>
    simp only [test, governed_testRule]
    refine (mimics_enclosed (mimics_test hρ limits left hc)).bind fun l l' hl =>
      (mimics_enclosed (mimics_test hρ limits right hc)).bind fun r r' hr => mimics_done ?_
    rw [hl, hr, rename_both]
  | or left right =>
    simp only [test, governed_testRule]
    refine (mimics_enclosed (mimics_test hρ limits left hc)).bind fun l l' hl =>
      (mimics_enclosed (mimics_test hρ limits right hc)).bind fun r r' hr => mimics_done ?_
    rw [hl, hr, rename_oneOf]
  | not inner =>
    simp only [test, governed_testRule]
    refine (mimics_enclosed (mimics_test hρ limits inner hc)).bind fun e e' he => mimics_done ?_
    rw [he, Expr.rename]
  | comparison op left right =>
    simp only [test, governed_testRule]
    exact mimics_compared op (mimics_selector hρ limits left hc)
      (mimics_selector hρ limits right hc)
  | pathEquality left right =>
    simp only [test, governed_testRule]
    exact mimics_compared .eq (mimics_selector hρ limits left hc)
      (mimics_selector hρ limits right hc)
  | pathExists path =>
    simp only [test, governed_testRule]
    exact (mimics_selector hρ limits path hc).bind fun _ _ _ => mimics_done rfl
  | language tag =>
    simp only [test, governed_testRule]
    rw [hc.2]
    exact mimics_done rfl
  | datatype type =>
    simp only [test, governed_testRule]
    rw [hc.2]
    exact mimics_done rfl

end

end Compile

namespace Allocator

/-- The context, and the variables that are still to be given. -/
def scope (a : Allocator) (context : Variable) : Set Variable := {v | v = context ∨ a.Pending v}

open Classical in
/-- Sends the variables that one allocator gives to those that another gives, in turn, and every
other variable to the context. -/
noncomputable def relabel (a : Allocator) (context : Variable) (b : Allocator) (v : Variable) :
    Variable :=
  if h : a.Pending v then b.nth h.choose else context

variable {context context' : Variable} {a b : Allocator}

theorem relabel_nth (n : Nat) : relabel a context b (a.nth n) = b.nth n := by
  have h : a.Pending (a.nth n) := ⟨n, rfl⟩
  rw [relabel, dif_pos h, ← a.nth_injective h.choose_spec]

theorem relabel_context (ha : ¬ a.Pending context) : relabel a context' b context = context' :=
  dif_neg ha

theorem injOn_relabel (ha : ¬ a.Pending context) (hb : ¬ b.Pending context') :
    Set.InjOn (relabel a context' b) (a.scope context) := by
  rintro v (rfl | ⟨m, rfl⟩) w (rfl | ⟨n, rfl⟩) heq
  · rfl
  · rw [relabel_context ha, relabel_nth] at heq
    exact absurd ⟨n, heq⟩ hb
  · rw [relabel_context ha, relabel_nth] at heq
    exact absurd ⟨m, heq.symm⟩ hb
  · rw [relabel_nth, relabel_nth] at heq
    rw [b.nth_injective heq]

theorem tracks_relabel : a.Tracks (relabel a context' b) (a.scope context) b :=
  ⟨fun n => (relabel_nth n).symm, fun n => .inr ⟨n, rfl⟩⟩

theorem renamed_context (ha : ¬ a.Pending context) :
    Variable.Renamed (relabel a context' b) (a.scope context) context context' :=
  ⟨.inl rfl, (relabel_context ha).symm⟩

theorem mirrors_relabel (ha : ¬ a.Pending context) {r r' : Row} (hr : r.Avoids a)
    (hr' : r'.Avoids b) (h : r'.value? context' = r.value? context) :
    Row.Mirrors (relabel a context' b) (a.scope context) r r' := by
  rintro v (rfl | ⟨n, rfl⟩)
  · rw [relabel_context ha, h]
  · rw [relabel_nth, hr' _ ⟨n, rfl⟩, hr _ ⟨n, rfl⟩]

end Allocator

section Renamed

variable {D : List Quad} {ρ : Variable → Variable} {V : Set Variable}

private theorem Element.renameAll_eq_map (g : Group) :
    Element.renameAll ρ g = g.map (Element.rename ρ) := by
  induction g with
  | nil => rfl
  | cons e rest ih => rw [Element.renameAll, ih, List.map_cons]

private theorem Expr.mem_vars_of_mem_rename (hρ : Set.InjOn ρ V) {e : Expr}
    (he : ∀ v ∈ e.vars, v ∈ V) {v : Variable} (hv : v ∈ V) (hmem : ρ v ∈ (e.rename ρ).vars) :
    v ∈ e.vars := by
  rw [Expr.vars_rename, List.mem_map] at hmem
  obtain ⟨w, hw, heq⟩ := hmem
  exact hρ (he w hw) hv heq ▸ hw

private theorem Group.BindingsGrounded.rename (hρ : Set.InjOn ρ V) {g : Group}
    (hg : ∀ v ∈ g.vars, v ∈ V) {v : Variable} (hv : v ∈ V) (h : g.BindingsGrounded D v) :
    Group.BindingsGrounded D (ρ v) (Element.renameAll ρ g) := by
  intro before' e' target' after' heq hmem r' hr'
  rw [Element.renameAll_eq_map] at heq
  obtain ⟨before, rest, rfl, rfl, hrest⟩ := List.map_eq_append_iff.1 heq
  obtain ⟨element, after, rfl, helement, -⟩ := List.map_eq_cons_iff.1 hrest
  cases element with
  | bind e target =>
    cases helement
    have hbefore : ∀ w ∈ Element.groupVars before, w ∈ V := fun w hw =>
      hg w (by simp [Group.vars, Element.groupVars_append, hw])
    have he : ∀ w ∈ e.vars, w ∈ V := fun w hw =>
      hg w (by simp [Group.vars, Element.groupVars_append, Element.groupVars, Element.vars, hw])
    have hsteps := Element.steps_rename hρ D before hbefore (.refl_empty ρ V)
    rw [← Element.renameAll_eq_map] at hr'
    obtain ⟨r, hr, hmirrors⟩ := exists_of_forall₂_right hsteps hr'
    rw [hmirrors v hv]
    exact h before e target after rfl (Expr.mem_vars_of_mem_rename hρ he hv hmem) r hr
  | _ => cases helement

private theorem Group.FiltersGrounded.rename (hρ : Set.InjOn ρ V) {g : Group}
    (hg : ∀ v ∈ g.vars, v ∈ V) {v : Variable} (hv : v ∈ V) (h : g.FiltersGrounded D v) :
    Group.FiltersGrounded D (ρ v) (Element.renameAll ρ g) := by
  intro e' he' hmem r' hr'
  rw [Element.renameAll_eq_map, List.mem_map] at he'
  obtain ⟨element, helement, heq⟩ := he'
  cases element with
  | filter e =>
    cases heq
    have he : ∀ w ∈ e.vars, w ∈ V := fun w hw => hg w (Element.mem_groupVars_of_mem helement hw)
    obtain ⟨r, hr, hmirrors⟩ := exists_of_forall₂_right
      (Element.steps_rename hρ D g hg (.refl_empty ρ V)) hr'
    rw [hmirrors v hv]
    exact h e helement (Expr.mem_vars_of_mem_rename hρ he hv hmem) r hr
  | _ => cases heq

end Renamed

namespace Emission.Renamed

variable {D : List Quad} {context : Variable} {a b : Allocator} {em em' : Emission Variable}

private theorem values (ha : ¬ a.Pending context) (hb : ¬ b.Pending context)
    (htidy : em.elements.Tidy (· = context) a em.allocator)
    (h : em.Renamed (a.relabel context b) (a.scope context)
      (Variable.Renamed (a.relabel context b) (a.scope context)) em')
    {r : Row} (hr : r.Avoids a) (hr' : r.Avoids b) : em'.values D r = em.values D r := by
  have hfound := Group.found_rename (Allocator.injOn_relabel ha hb) D em.elements
    (fun v hv => htidy.vars hv) (Allocator.mirrors_relabel ha hr hr' rfl)
  rw [← h.elements] at hfound
  ext n
  rw [mem_values, mem_values]
  refine (exists_mem_iff_of_forall₂ hfound fun x x' hmirrors => ?_).symm
  rw [h.value.2, hmirrors em.value h.value.1]

private theorem value_eq_iff (ha : ¬ a.Pending context) (hb : ¬ b.Pending context)
    (h : em.Renamed (a.relabel context b) (a.scope context)
      (Variable.Renamed (a.relabel context b) (a.scope context)) em') :
    em'.value = context ↔ em.value = context :=
  Compile.renamed_eq_iff (Allocator.injOn_relabel ha hb) h.value (Allocator.renamed_context ha)

private theorem grounded (ha : ¬ a.Pending context) (hb : ¬ b.Pending context)
    (htidy : em.elements.Tidy (· = context) a em.allocator)
    (h : em.Renamed (a.relabel context b) (a.scope context)
      (Variable.Renamed (a.relabel context b) (a.scope context)) em')
    (hgrounded : em.Grounded D context) : em'.Grounded D context := by
  have hρ := Allocator.injOn_relabel ha hb
  have hvars : ∀ v ∈ em.elements.vars, v ∈ a.scope context := fun v hv => htidy.vars hv
  have hbindings := hgrounded.bindings.rename hρ hvars (.inl rfl)
  rw [Allocator.relabel_context ha, ← h.elements] at hbindings
  refine ⟨hbindings, hgrounded.filters.imp (h.value_eq_iff ha hb).2 fun hfilters => ?_⟩
  have hfilters' := hfilters.rename hρ hvars (.inl rfl)
  rwa [Allocator.relabel_context ha, ← h.elements] at hfilters'

end Emission.Renamed

namespace Compile

variable {limits : RecursionLimits} {s : Selector} {context : Variable} {a b : Allocator}
  {em em' : Emission Variable}

/-- What compiles with the variables of one allocator compiles with those of another. -/
theorem exists_selector_ok (ha : ¬ a.Pending context) (hb : ¬ b.Pending context)
    (hem : selector .builtin limits s context a = .ok em) :
    ∃ em', selector .builtin limits s context b = .ok em' ∧
      em.Renamed (a.relabel context b) (a.scope context)
        (Variable.Renamed (a.relabel context b) (a.scope context)) em' :=
  mimics_selector (Allocator.injOn_relabel ha hb) limits s (Allocator.renamed_context ha) a b em
    Allocator.tracks_relabel hem

/-- Which variables were taken makes no difference to what a selector offers from a seed. -/
theorem offered_selector {D : List Quad} {r : Row} {c : Node} (hc : r.value? context = some c)
    (hr : r.Avoids a) (hr' : r.Avoids b) (hem : selector .builtin limits s context a = .ok em)
    (hem' : selector .builtin limits s context b = .ok em') :
    em'.values D r = em.values D r ∧ em'.offered D context r = em.offered D context r ∧
      (em.Grounded D context → em'.Grounded D context) := by
  have ha := hr.not_pending hc
  have hb := hr'.not_pending hc
  obtain ⟨em'', hem'', hrenamed⟩ := exists_selector_ok ha hb hem
  obtain rfl := Except.ok.inj (hem''.symm.trans hem')
  have htidy := (stays_selector limits s context a em hem).1
  have hvalues := hrenamed.values (D := D) ha hb htidy hr hr'
  refine ⟨hvalues, ?_, hrenamed.grounded ha hb htidy⟩
  ext n
  rw [Emission.mem_offered, Emission.mem_offered, hvalues, hrenamed.value_eq_iff ha hb]

end Compile

end GraphPath
