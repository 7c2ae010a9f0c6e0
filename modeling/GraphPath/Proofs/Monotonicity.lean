import GraphPath.Proofs.Conjunction
import GraphPath.Proofs.Positive

/-!
# Sessions over more statements

Every rule but that of a negation writes a positive pattern and gives a positive condition. So what
is compiled without a negation keeps its rows over more statements, and a session without one keeps
its results.
-/

namespace GraphPath

open Emit Compile

mutual

/-- Whether no test in the selector is a negation. -/
def Selector.isNegationFree : Selector → Bool
  | .property _ => true
  | .reverse _ => true
  | .path left right => left.isNegationFree && right.isNegationFree
  | .union left right => left.isNegationFree && right.isNegationFree
  | .intersection left right => left.isNegationFree && right.isNegationFree
  | .recursive inner _ _ => inner.isNegationFree
  | .grouping inner => inner.isNegationFree
  | .testing delegate t => delegate.isNegationFree && t.isNegationFree
  | .function _ args => Selector.allNegationFree args
  | .self => true
  | .wildcard => true
  | .constant _ => true

def Selector.allNegationFree : List Selector → Bool
  | [] => true
  | s :: rest => s.isNegationFree && Selector.allNegationFree rest

/-- Whether the test is no negation and has none within. -/
def Test.isNegationFree : Test → Bool
  | .isA type => type.isNegationFree
  | .and left right => left.isNegationFree && right.isNegationFree
  | .or left right => left.isNegationFree && right.isNegationFree
  | .not _ => false
  | .comparison _ left right => left.isNegationFree && right.isNegationFree
  | .pathEquality left right => left.isNegationFree && right.isNegationFree
  | .pathExists path => path.isNegationFree
  | .language _ => true
  | .datatype _ => true

end

/-! ## Steps that write positive patterns -/

/-- The step writes a positive pattern, and its value is as it should be. -/
def Emit.Positive {α : Type} (ok : α → Prop) (m : Emit α) : Prop :=
  ∀ a em, m a = .ok em → Element.allPositive em.elements = true ∧ ok em.value

section

variable {α β : Type} {ok : α → Prop} {ok' : β → Prop}

private theorem positive_done {x : α} (hx : ok x) : (done x).Positive ok := by
  rintro a em ⟨⟩
  exact ⟨rfl, hx⟩

private theorem Emit.Positive.bind {m : Emit α} {f : α → Emit β} (hm : m.Positive ok)
    (hf : ∀ x, ok x → (f x).Positive ok') : (m >>= f).Positive ok' := by
  intro a em hem
  obtain ⟨first, second, hfirst, hsecond, rfl⟩ := bind_ok hem
  obtain ⟨helements, hvalue⟩ := hm a first hfirst
  obtain ⟨helements', hvalue'⟩ := hf first.value hvalue first.allocator second hsecond
  exact ⟨by rw [Element.allPositive_append, helements, helements']; rfl, hvalue'⟩

private theorem positive_ofExcept_bind {x : Except CompileError β} {f : β → Emit α}
    (h : ∀ y, x = .ok y → (f y).Positive ok) : (ofExcept x >>= f).Positive ok := by
  intro a em hem
  obtain ⟨y, hy, hfy⟩ := ofExcept_bind_ok hem
  exact h y hy a em hfy

private theorem positive_fresh : fresh.Positive fun _ => True := by
  intro a em hem
  obtain rfl := fresh_ok hem
  exact ⟨rfl, trivial⟩

private theorem positive_write {e : Element} (he : e.isPositive = true) :
    (write e).Positive fun _ => True := by
  rintro a em ⟨⟩
  exact ⟨by simp [Element.allPositive, he], trivial⟩

private theorem positive_iterate {f : Variable → Emit Variable}
    (h : ∀ c, (f c).Positive fun _ => True) (n : Nat) (c : Variable) :
    (iterate f n c).Positive fun _ => True := by
  induction n generalizing c with
  | zero => exact positive_done trivial
  | succ n ih => exact (h c).bind fun next _ => ih next

private theorem Emit.Runs.allPositive {ms : List (Emit α)} {a a' : Allocator}
    {ems : List (Emission α)} (hruns : Runs ms a ems a') (h : ∀ m ∈ ms, m.Positive ok) :
    ∀ em ∈ ems, Element.allPositive em.elements = true := by
  induction hruns with
  | nil a => simp
  | @cons m ms a a' em ems head tail ih =>
    rw [List.forall_mem_cons] at h ⊢
    exact ⟨(h.1 a em head).1, ih h.2⟩

end

private theorem allPositive_closing (context output value : Variable) (a : Allocator) :
    Element.allPositive (closing context output value a).1 = true := by
  unfold closing
  split <;> rfl

private theorem branchesPositive_closings (context output : Variable)
    {ems : List (Emission Variable)} (h : ∀ em ∈ ems, Element.allPositive em.elements = true)
    (a : Allocator) :
    Element.branchesPositive (closings context output ems a).1 = true := by
  induction ems generalizing a with
  | nil => rfl
  | cons em rest ih =>
    rw [List.forall_mem_cons] at h
    simp only [closings, Element.branchesPositive, Element.allPositive_append, h.1,
      allPositive_closing, ih h.2, Bool.and_self]

private theorem positive_alternatives {context : Variable} {branches : List (Emit Variable)}
    (h : ∀ m ∈ branches, m.Positive fun _ => True) :
    (alternatives context branches).Positive fun _ => True := by
  intro a em hem
  obtain ⟨ems, a', hruns, rfl⟩ := alternatives_ok hem
  have hgroups := branchesPositive_closings context a'.fresh.1 (hruns.allPositive h) a'.fresh.2
  exact ⟨by simp [Element.allPositive, Element.isPositive, hgroups], trivial⟩

private theorem positive_unrolled {step : Variable → Emit Variable}
    (h : ∀ c, (step c).Positive fun _ => True) (min bound : Nat) (context : Variable) :
    (unrolled step min bound context).Positive fun _ => True := by
  unfold unrolled
  split
  · exact positive_iterate h min context
  · refine positive_alternatives fun m hm => ?_
    obtain ⟨i, -, rfl⟩ := List.mem_map.1 hm
    exact positive_iterate h (min + i) context

private theorem positive_bindFresh {e : Expr} (he : e.isLocal = true) :
    (bindFresh e).Positive fun _ => True :=
  positive_fresh.bind fun output _ =>
    (positive_write (e := .bind e output) he).bind fun _ _ => positive_done trivial

private theorem positive_require {e : Expr} (he : e.isPositive = true) :
    (require e).Positive fun _ => True := by
  unfold require
  split
  · exact positive_done trivial
  · exact positive_write he

private theorem positive_requireSame (left right : Variable) :
    (requireSame left right).Positive fun _ => True := by
  unfold requireSame
  split
  · exact positive_done trivial
  · exact positive_write rfl

private theorem positive_asOperand {s : Selector} {m : Emit Variable}
    (h : m.Positive fun _ => True) :
    (asOperand s m).Positive fun e => e.isLocal = true := by
  unfold asOperand
  split
  · exact positive_done rfl
  · exact h.bind fun _ _ => positive_done rfl

private theorem positive_compared (op : Comparison) {left right : Selector} {m m' : Emit Variable}
    (h : m.Positive fun _ => True) (h' : m'.Positive fun _ => True) :
    Positive (fun e => e.isPositive = true) (do
      let l ← asOperand left m
      let l' ← asOperand right m'
      return Expr.compare op l l') :=
  (positive_asOperand h).bind fun _ hl => (positive_asOperand h').bind fun _ hl' =>
    positive_done (Bool.and_eq_true_iff.2 ⟨hl, hl'⟩)

private theorem positive_enclosed {m : Emit Expr} (h : m.Positive fun e => e.isPositive = true) :
    (enclosed m).Positive fun e => e.isPositive = true := by
  intro a em hem
  obtain ⟨inner, hinner, hnil, -, hvalue⟩ := enclosed_ok hem
  obtain ⟨helements, hcondition⟩ := h a inner hinner
  refine ⟨by rw [hnil]; rfl, ?_⟩
  rcases hvalue with ⟨-, hvalue⟩ | ⟨-, hvalue⟩
  · rwa [hvalue]
  · have hfilter : Element.allPositive (filterOf inner.value) = true := by
      unfold filterOf
      split
      · rfl
      · simp [Element.allPositive, Element.isPositive, hcondition]
    simp [hvalue, Expr.isPositive, Element.allPositive_append, helements, hfilter]

private theorem isPositive_both {l r : Expr} (hl : l.isPositive = true) (hr : r.isPositive = true) :
    (Expr.both l r).isPositive = true := by
  unfold Expr.both
  split
  · exact hr
  · exact hl
  · simp [Expr.isPositive, hl, hr]

private theorem isPositive_oneOf {l r : Expr} (hl : l.isPositive = true)
    (hr : r.isPositive = true) :
    (Expr.oneOf l r).isPositive = true := by
  unfold Expr.oneOf
  split
  · rfl
  · rfl
  · simp [Expr.isPositive, hl, hr]

/-! ## Compilation without negations -/

mutual

private theorem positive_selector (limits : RecursionLimits) (s : Selector)
    (hs : s.isNegationFree = true) (context : Variable) :
    (selector .builtin limits s context).Positive fun _ => True := by
  cases s with
  | property p =>
    rw [selector, governed_selectorRule]
    exact positive_fresh.bind fun _ _ => (positive_write rfl).bind fun _ _ => positive_done trivial
  | reverse p =>
    rw [selector, governed_selectorRule]
    exact positive_fresh.bind fun _ _ => (positive_write rfl).bind fun _ _ => positive_done trivial
  | path left right =>
    obtain ⟨hleft, hright⟩ := Bool.and_eq_true_iff.1 hs
    rw [selector, governed_selectorRule]
    exact (positive_selector limits left hleft context).bind fun middle _ =>
      positive_selector limits right hright middle
  | union left right =>
    obtain ⟨hleft, hright⟩ := Bool.and_eq_true_iff.1 hs
    rw [selector, governed_selectorRule]
    refine positive_alternatives fun m hm => ?_
    rcases List.mem_pair.1 hm with rfl | rfl
    · exact positive_selector limits left hleft context
    · exact positive_selector limits right hright context
  | intersection left right =>
    obtain ⟨hleft, hright⟩ := Bool.and_eq_true_iff.1 hs
    rw [selector, governed_selectorRule]
    exact (positive_selector limits left hleft context).bind fun l _ =>
      (positive_selector limits right hright context).bind fun l' _ =>
        (positive_requireSame l l').bind fun _ _ => positive_done trivial
  | recursive inner min max =>
    rw [selector, governed_selectorRule]
    exact positive_ofExcept_bind fun depth _ =>
      positive_unrolled (fun c => positive_selector limits inner hs c) min depth context
  | grouping inner =>
    rw [selector, governed_selectorRule]
    exact positive_selector limits inner hs context
  | testing delegate t =>
    obtain ⟨hdelegate, ht⟩ := Bool.and_eq_true_iff.1 hs
    rw [selector, governed_selectorRule]
    exact (positive_selector limits delegate hdelegate context).bind fun value _ =>
      (positive_test limits t ht value).bind fun e he =>
        (positive_require he).bind fun _ _ => positive_done trivial
  | function name args =>
    rw [selector, governed_selectorRule]
    refine positive_ofExcept_bind fun f hf =>
      (positive_operands limits args hs context).bind fun values hvalues =>
        positive_ofExcept_bind fun e he => positive_bindFresh ?_
    obtain ⟨b, rfl⟩ := Registry.exists_call hf he
    exact hvalues
  | self =>
    rw [selector, governed_selectorRule]
    exact positive_done trivial
  | wildcard =>
    rw [selector, governed_selectorRule]
    exact positive_fresh.bind fun _ _ => positive_fresh.bind fun _ _ =>
      (positive_write rfl).bind fun _ _ => positive_done trivial
  | constant n =>
    rw [selector, governed_selectorRule]
    exact positive_bindFresh rfl

private theorem positive_operands (limits : RecursionLimits) (args : List Selector)
    (hargs : Selector.allNegationFree args = true) (context : Variable) :
    (operands .builtin limits args context).Positive fun es => Expr.allLocal es = true := by
  cases args with
  | nil =>
    rw [operands]
    exact positive_done rfl
  | cons s rest =>
    obtain ⟨hs, hrest⟩ := Bool.and_eq_true_iff.1 hargs
    rw [operands]
    exact (positive_asOperand (positive_selector limits s hs context)).bind fun e he =>
      (positive_operands limits rest hrest context).bind fun more hmore =>
        positive_done (Bool.and_eq_true_iff.2 ⟨he, hmore⟩)

private theorem positive_test (limits : RecursionLimits) (t : Test) (ht : t.isNegationFree = true)
    (context : Variable) :
    (test .builtin limits t context).Positive fun e => e.isPositive = true := by
  cases t with
  | isA type =>
    by_cases htype : ∃ i, type = .constant (.iri i)
    · obtain ⟨i, rfl⟩ := htype
      rw [test, governed_testRule]
      exact (positive_write rfl).bind fun _ _ => positive_done rfl
    · rw [test, governed_testRule]
      · exact positive_fresh.bind fun found _ => (positive_write rfl).bind fun _ _ =>
          (positive_asOperand (positive_selector limits type ht context)).bind fun expected he =>
            positive_done (Bool.and_eq_true_iff.2 ⟨rfl, he⟩)
      · exact fun i hi => htype ⟨i, hi⟩
  | and left right =>
    obtain ⟨hleft, hright⟩ := Bool.and_eq_true_iff.1 ht
    rw [test, governed_testRule]
    exact (positive_enclosed (positive_test limits left hleft context)).bind fun l hl =>
      (positive_enclosed (positive_test limits right hright context)).bind fun l' hl' =>
        positive_done (isPositive_both hl hl')
  | or left right =>
    obtain ⟨hleft, hright⟩ := Bool.and_eq_true_iff.1 ht
    rw [test, governed_testRule]
    exact (positive_enclosed (positive_test limits left hleft context)).bind fun l hl =>
      (positive_enclosed (positive_test limits right hright context)).bind fun l' hl' =>
        positive_done (isPositive_oneOf hl hl')
  | not inner => cases ht
  | comparison op left right =>
    obtain ⟨hleft, hright⟩ := Bool.and_eq_true_iff.1 ht
    rw [test, governed_testRule]
    exact positive_compared op (positive_selector limits left hleft context)
      (positive_selector limits right hright context)
  | pathEquality left right =>
    obtain ⟨hleft, hright⟩ := Bool.and_eq_true_iff.1 ht
    rw [test, governed_testRule]
    exact positive_compared .eq (positive_selector limits left hleft context)
      (positive_selector limits right hright context)
  | pathExists path =>
    rw [test, governed_testRule]
    exact (positive_selector limits path ht context).bind fun _ _ => positive_done rfl
  | language tag =>
    rw [test, governed_testRule]
    exact positive_done rfl
  | datatype type =>
    rw [test, governed_testRule]
    exact positive_done rfl

end

private theorem Criterion.positive_emit (limits : RecursionLimits) {k : Criterion}
    (hk : k.selector.isNegationFree = true) (root : Variable) :
    (k.emit .builtin limits root).Positive fun _ => True := by
  refine (positive_selector limits k.selector hk root).bind fun value _ => ?_
  split
  · next constraint _ =>
    refine positive_write ?_
    unfold Constraint.condition
    split <;> rfl
  · exact positive_done trivial

private theorem allPositive_typePattern (root : Variable) (types : List Iri) :
    Element.allPositive (typePattern root types) = true := by
  induction types with
  | nil => rfl
  | cons t types ih => exact ih

private theorem allPositive_flatten {groups : List Group}
    (h : ∀ g ∈ groups, Element.allPositive g = true) :
    Element.allPositive groups.flatten = true := by
  induction groups with
  | nil => rfl
  | cons g rest ih =>
    rw [List.forall_mem_cons] at h
    rw [List.flatten_cons, Element.allPositive_append, h.1, ih h.2, Bool.and_self]

namespace Session

/-- The pattern of a session without negations and without an ordering is positive. -/
theorem positive_emit {s : Session} (hregistry : s.registry = .builtin)
    (hcriteria : ∀ k ∈ s.criteria, k.selector.isNegationFree = true) (horder : s.orderBy = []) :
    s.emit.Positive fun _ => True := by
  intro a em hem
  obtain ⟨-, ems, a', hruns, helements⟩ := emit_ok horder hem
  rw [hregistry] at hruns
  have hblocks : ∀ m ∈ s.criteria.map fun k => k.emit .builtin s.settings.recursion s.root,
      m.Positive fun _ => True := by
    intro m hm
    obtain ⟨k, hk, rfl⟩ := List.mem_map.1 hm
    exact Criterion.positive_emit _ (hcriteria k hk) _
  rw [helements, ← typePattern, Element.allPositive_append, allPositive_typePattern, Bool.true_and]
  refine ⟨allPositive_flatten fun g hg => ?_, trivial⟩
  obtain ⟨em', hem', rfl⟩ := List.mem_map.1 hg
  exact hruns.allPositive hblocks em' hem'

/-- A session without negations, an ordering and bounds keeps its results when there are more
statements. -/
theorem execute_subset {s : Session} {store store' : Store} (hregistry : s.registry = .builtin)
    (hcriteria : ∀ k ∈ s.criteria, k.selector.isNegationFree = true) (horder : s.orderBy = [])
    (hlimit : s.limit = none) (hoffset : s.offset = none) (h : store.quads ⊆ store'.quads)
    {results results' : List Iri} (hresults : s.execute store.select = .ok results)
    (hresults' : s.execute store'.select = .ok results') : results ⊆ results' := by
  intro i hi
  obtain ⟨em, hem, -, hmem⟩ := execute_ok hlimit hoffset hresults
  obtain ⟨em', hem', -, hmem'⟩ := execute_ok hlimit hoffset hresults'
  obtain rfl := Except.ok.inj (hem.symm.trans hem')
  have hpositive := (positive_emit hregistry hcriteria horder _ em hem).1
  have hvisible : store.quads.filter (Quad.isVisible s.graph) ⊆
      store'.quads.filter (Quad.isVisible s.graph) := List.filter_subset _ h
  obtain ⟨row, hrow, hvalue⟩ := (hmem i).1 hi
  exact (hmem' i).2 ⟨row, Group.found_subset hvisible hpositive _ hrow, hvalue⟩

/-- A resource that is compared, tested and led to itself, in a store to which another one and a
second value are added. -/
theorem execute_subset_added :
    let t : Iri := ⟨"http://e/T"⟩
    let p : Iri := ⟨"http://e/p"⟩
    let a : Iri := ⟨"http://e/a"⟩
    let b : Iri := ⟨"http://e/b"⟩
    let store : Store := { quads := [⟨a, Iri.rdfType, .iri t, none⟩,
      ⟨a, p, .literal (.plain "n"), none⟩] }
    let store' : Store := { quads := ⟨b, Iri.rdfType, .iri t, none⟩ :: ⟨b, p, .iri a, none⟩ ::
      ⟨a, p, .literal (.plain "x"), none⟩ :: store.quads }
    let s : Session := { Session.start .builtin {} none with
      types := [t]
      criteria := [⟨.testing .self (.or (.and (.isA (.constant (.iri t)))
          (.comparison .ge (.property p) (.constant (.literal (.plain "m")))))
          (.pathEquality (.path (.property p) (.property p)) (.constant (.literal (.plain "n"))))),
          none⟩,
        ⟨.function "str" [.union .self (.property p)], some ⟨.contains, .plain "e/a"⟩⟩] }
    ∃ results results', s.execute store.select = .ok results ∧
      s.execute store'.select = .ok results' ∧ a ∈ results ∧ b ∉ results ∧ b ∈ results' ∧
      (∀ k ∈ s.criteria, k.selector.isNegationFree = true) ∧ store.quads ⊆ store'.quads ∧
      results ⊆ results' := by
  intro t p a b store store' s
  have hbefore : (s.execute store.select).toOption.any (fun is => a ∈ is && b ∉ is) = true := by
    decide +kernel
  have hafter : (s.execute store'.select).toOption.any (fun is => b ∈ is) = true := by
    decide +kernel
  obtain ⟨results, hresults, hmem⟩ := exists_ok_of_any hbefore
  obtain ⟨results', hresults', hmem'⟩ := exists_ok_of_any hafter
  have hfree : ∀ k ∈ s.criteria, k.selector.isNegationFree = true := by decide
  have hsub : store.quads ⊆ store'.quads := fun q hq => by simp [store', hq]
  simp only [Bool.and_eq_true, decide_eq_true_eq] at hmem hmem'
  exact ⟨results, results', hresults, hresults', hmem.1, hmem.2, hmem', hfree, hsub,
    execute_subset rfl hfree rfl rfl rfl hsub hresults hresults'⟩

end Session

end GraphPath
