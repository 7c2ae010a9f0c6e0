import GraphPath.Proofs.RoundTrip
import GraphPath.Proofs.Rules
import GraphPath.Proofs.UniqueReading
import GraphPath.Session.Basic

/-!
# Constants of compiled patterns

Compiling makes no literals up: each literal in a pattern stands in the selector it was compiled
from, or is the plain text of a language tag. So a property that plain texts have and the literals
of a session have is one that all literals of its query have.
-/

namespace GraphPath

open Emit Compile

/-- The term is no literal, or a literal with the property. -/
def Term.Admits (ok : Literal → Prop) : Term → Prop
  | .var _ => True
  | .node (.iri _) => True
  | .node (.literal l) => ok l

private theorem Node.admits_iff {ok : Literal → Prop} {n : Node} :
    (Term.node n).Admits ok ↔ ∀ l ∈ n.literals, ok l := by
  cases n <;> simp [Term.Admits, Node.literals]

private theorem Element.groupTerms_append (g g' : Group) :
    Element.groupTerms (g ++ g') = Element.groupTerms g ++ Element.groupTerms g' := by
  induction g with
  | nil => rfl
  | cons e g ih => simp only [List.cons_append, Element.groupTerms, ih, List.append_assoc]

/-! ## Steps that write terms of a kind -/

/-- The terms that the step writes have the property, and so have the terms of its value. -/
def Emit.Writes {α : Type} (good : Term → Prop) (terms : α → List Term) (m : Emit α) : Prop :=
  ∀ a em, m a = .ok em →
    (∀ t ∈ Element.groupTerms em.elements, good t) ∧ ∀ t ∈ terms em.value, good t

/-- A value without terms. -/
def termless {α : Type} (_ : α) : List Term := []

section

variable {α β : Type} {good : Term → Prop} {terms : α → List Term} {terms' : β → List Term}

private theorem writes_done {x : α} (hx : ∀ t ∈ terms x, good t) : (done x).Writes good terms := by
  rintro a em ⟨⟩
  exact ⟨by simp [Element.groupTerms], hx⟩

private theorem writes_value {x : α} :
    (done x).Writes good termless := writes_done (by simp [termless])

private theorem Emit.Writes.bind {m : Emit α} {f : α → Emit β} (hm : m.Writes good terms)
    (hf : ∀ x, (∀ t ∈ terms x, good t) → (f x).Writes good terms') :
    (m >>= f).Writes good terms' := by
  intro a em hem
  obtain ⟨first, second, hfirst, hsecond, rfl⟩ := bind_ok hem
  obtain ⟨hwritten, hvalue⟩ := hm a first hfirst
  obtain ⟨hwritten', hvalue'⟩ := hf first.value hvalue first.allocator second hsecond
  refine ⟨?_, hvalue'⟩
  rw [Element.groupTerms_append, List.forall_mem_append]
  exact ⟨hwritten, hwritten'⟩

private theorem writes_ofExcept_bind {x : Except CompileError β} {f : β → Emit α}
    (h : ∀ y, x = .ok y → (f y).Writes good terms) : (ofExcept x >>= f).Writes good terms := by
  intro a em hem
  obtain ⟨y, hy, hfy⟩ := ofExcept_bind_ok hem
  exact h y hy a em hfy

private theorem writes_fresh : fresh.Writes good termless := by
  intro a em hem
  obtain rfl := fresh_ok hem
  exact ⟨by simp [Element.groupTerms], by simp [termless]⟩

private theorem writes_write {e : Element} (he : ∀ t ∈ e.terms, good t) :
    (write e).Writes good termless := by
  rintro a em ⟨⟩
  exact ⟨by simpa [Element.groupTerms] using he, by simp [termless]⟩

private theorem writes_iterate {f : Variable → Emit Variable} (h : ∀ c, (f c).Writes good termless)
    (n : Nat) (c : Variable) : (iterate f n c).Writes good termless := by
  induction n generalizing c with
  | zero => exact writes_value
  | succ n ih => exact (h c).bind fun next _ => ih next

private theorem Emit.Runs.writes {ms : List (Emit α)} {a a' : Allocator} {ems : List (Emission α)}
    (hruns : Runs ms a ems a') (h : ∀ m ∈ ms, m.Writes good terms) :
    ∀ em ∈ ems, (∀ t ∈ Element.groupTerms em.elements, good t) ∧ ∀ t ∈ terms em.value, good t := by
  induction hruns with
  | nil a => simp
  | @cons m ms a a' em ems head tail ih =>
    rw [List.forall_mem_cons] at h ⊢
    exact ⟨h.1 a em head, ih h.2⟩

private theorem writes_inOrder {ms : List (Emit α)} (h : ∀ m ∈ ms, m.Writes good terms) :
    (inOrder ms).Writes good (List.flatMap terms) := by
  induction ms with
  | nil => exact writes_done (by simp)
  | cons m ms ih =>
    rw [List.forall_mem_cons] at h
    refine h.1.bind fun x hx => (ih h.2).bind fun xs hxs => writes_done ?_
    rw [List.flatMap_cons, List.forall_mem_append]
    exact ⟨hx, hxs⟩

private theorem writes_captured {m : Emit α} (h : m.Writes good terms) :
    (captured m).Writes good fun x => terms x.1 ++ Element.groupTerms x.2 := by
  intro a em hem
  obtain ⟨inner, hinner, rfl⟩ := captured_ok hem
  obtain ⟨hwritten, hvalue⟩ := h a inner hinner
  refine ⟨by simp [Element.groupTerms], ?_⟩
  rw [List.forall_mem_append]
  exact ⟨hvalue, hwritten⟩

end

/-! ## Compilation -/

section

variable {ok : Literal → Prop}

private theorem admits_closing (context output value : Variable) (a : Allocator) :
    ∀ t ∈ Element.groupTerms (closing context output value a).1, t.Admits ok := by
  unfold closing
  split <;> simp [Element.groupTerms, Element.terms, Expr.terms, Expr.var, Term.Admits,
    anyResource, Element.branchTerms, Element.ofTriple]

private theorem admits_closings (context output : Variable) {ems : List (Emission Variable)}
    (h : ∀ em ∈ ems, ∀ t ∈ Element.groupTerms em.elements, t.Admits ok) (a : Allocator) :
    ∀ t ∈ Element.branchTerms (closings context output ems a).1, t.Admits ok := by
  induction ems generalizing a with
  | nil => simp [closings, Element.branchTerms]
  | cons em rest ih =>
    rw [List.forall_mem_cons] at h
    simp only [closings, Element.branchTerms, Element.groupTerms_append, List.forall_mem_append]
    exact ⟨⟨h.1, admits_closing context output em.value a⟩, ih h.2 _⟩

private theorem writes_alternatives {context : Variable} {branches : List (Emit Variable)}
    (h : ∀ m ∈ branches, m.Writes (Term.Admits ok) termless) :
    (alternatives context branches).Writes (Term.Admits ok) termless := by
  intro a em hem
  obtain ⟨ems, a', hruns, rfl⟩ := alternatives_ok hem
  have hgroups := admits_closings context a'.fresh.1 (fun em hem => (hruns.writes h em hem).1)
    a'.fresh.2
  exact ⟨by simpa [Element.groupTerms, Element.terms] using hgroups, by simp [termless]⟩

private theorem writes_unrolled {step : Variable → Emit Variable}
    (h : ∀ c, (step c).Writes (Term.Admits ok) termless) (min bound : Nat) (context : Variable) :
    (unrolled step min bound context).Writes (Term.Admits ok) termless := by
  unfold unrolled
  split
  · exact writes_iterate h min context
  · refine writes_alternatives fun m hm => ?_
    obtain ⟨i, -, rfl⟩ := List.mem_map.1 hm
    exact writes_iterate h (min + i) context

private theorem writes_triple (s p o : Term) (h : ∀ t ∈ [s, p, o], t.Admits ok) :
    (writeTriple s p o).Writes (Term.Admits ok) termless :=
  writes_write (e := .ofTriple s p o) h

private theorem writes_bindFresh {e : Expr} (he : ∀ t ∈ e.terms, t.Admits ok) :
    (bindFresh e).Writes (Term.Admits ok) termless := by
  refine writes_fresh.bind fun output _ =>
    (writes_write (e := .bind e output) ?_).bind fun _ _ => writes_value
  rw [Element.terms, List.forall_mem_append, List.forall_mem_singleton]
  exact ⟨he, trivial⟩

private theorem writes_require {e : Expr} (he : ∀ t ∈ e.terms, t.Admits ok) :
    (require e).Writes (Term.Admits ok) termless := by
  unfold require
  split
  · exact writes_value
  · exact writes_write he

private theorem writes_requireSame (left right : Variable) :
    (requireSame left right).Writes (Term.Admits ok) termless := by
  unfold requireSame
  split
  · exact writes_value
  · exact writes_write (by simp [Element.terms, Expr.equals, Expr.terms, Expr.var, Term.Admits])

private theorem writes_asOperand {s : Selector} {m : Emit Variable} (hs : ∀ l ∈ s.literals, ok l)
    (h : m.Writes (Term.Admits ok) termless) :
    (asOperand s m).Writes (Term.Admits ok) Expr.terms := by
  unfold asOperand
  split
  · exact writes_done (by simpa [Expr.terms, Node.admits_iff, Selector.literals] using hs)
  · exact h.bind fun _ _ => writes_done (by simp [Expr.terms, Expr.var, Term.Admits])

private theorem writes_compared (op : Comparison) {left right : Selector} {m m' : Emit Variable}
    (hleft : ∀ l ∈ left.literals, ok l) (hright : ∀ l ∈ right.literals, ok l)
    (h : m.Writes (Term.Admits ok) termless) (h' : m'.Writes (Term.Admits ok) termless) :
    Writes (Term.Admits ok) Expr.terms (do
      let l ← asOperand left m
      let l' ← asOperand right m'
      return Expr.compare op l l') := by
  refine (writes_asOperand hleft h).bind fun l hl => (writes_asOperand hright h').bind fun l' hl' =>
    writes_done ?_
  rw [Expr.terms, List.forall_mem_append]
  exact ⟨hl, hl'⟩

private theorem writes_enclosed {m : Emit Expr} (h : m.Writes (Term.Admits ok) Expr.terms) :
    (enclosed m).Writes (Term.Admits ok) Expr.terms := by
  intro a em hem
  obtain ⟨inner, hinner, hnil, -, hvalue⟩ := enclosed_ok hem
  obtain ⟨hwritten, hcondition⟩ := h a inner hinner
  refine ⟨by simp [hnil, Element.groupTerms], ?_⟩
  rcases hvalue with ⟨-, hvalue⟩ | ⟨-, hvalue⟩
  · rwa [hvalue]
  · have hfilter : ∀ t ∈ Element.groupTerms (filterOf inner.value), t.Admits ok := by
      unfold filterOf
      split
      · simp [Element.groupTerms]
      · simpa [Element.groupTerms, Element.terms] using hcondition
    rw [hvalue, Expr.terms, Element.groupTerms_append, List.forall_mem_append]
    exact ⟨hwritten, hfilter⟩

private theorem Expr.admits_both {l r : Expr} (hl : ∀ t ∈ l.terms, t.Admits ok)
    (hr : ∀ t ∈ r.terms, t.Admits ok) : ∀ t ∈ (Expr.both l r).terms, t.Admits ok := by
  unfold Expr.both
  split
  · exact hr
  · exact hl
  · rw [Expr.terms, List.forall_mem_append]
    exact ⟨hl, hr⟩

private theorem Expr.admits_oneOf {l r : Expr} (hl : ∀ t ∈ l.terms, t.Admits ok)
    (hr : ∀ t ∈ r.terms, t.Admits ok) : ∀ t ∈ (Expr.oneOf l r).terms, t.Admits ok := by
  unfold Expr.oneOf
  split
  · exact hl
  · exact hr
  · rw [Expr.terms, List.forall_mem_append]
    exact ⟨hl, hr⟩

mutual

/-- What a selector compiles to has the literals of the selector and plain texts. -/
theorem writes_selector (hplain : ∀ value, ok (.plain value)) (limits : RecursionLimits)
    (s : Selector) (hs : ∀ l ∈ s.literals, ok l) (context : Variable) :
    (selector .builtin limits s context).Writes (Term.Admits ok) termless := by
  cases s with
  | property p =>
    rw [selector, governed_selectorRule]
    exact writes_fresh.bind fun _ _ => (writes_triple _ _ _ (by simp [Term.Admits, Term.iri])).bind
      fun _ _ => writes_value
  | reverse p =>
    rw [selector, governed_selectorRule]
    exact writes_fresh.bind fun _ _ => (writes_triple _ _ _ (by simp [Term.Admits, Term.iri])).bind
      fun _ _ => writes_value
  | path left right =>
    rw [Selector.literals, List.forall_mem_append] at hs
    rw [selector, governed_selectorRule]
    exact (writes_selector hplain limits left hs.1 context).bind fun middle _ =>
      writes_selector hplain limits right hs.2 middle
  | union left right =>
    rw [Selector.literals, List.forall_mem_append] at hs
    rw [selector, governed_selectorRule]
    refine writes_alternatives fun m hm => ?_
    rcases List.mem_pair.1 hm with rfl | rfl
    · exact writes_selector hplain limits left hs.1 context
    · exact writes_selector hplain limits right hs.2 context
  | intersection left right =>
    rw [Selector.literals, List.forall_mem_append] at hs
    rw [selector, governed_selectorRule]
    exact (writes_selector hplain limits left hs.1 context).bind fun l _ =>
      (writes_selector hplain limits right hs.2 context).bind fun l' _ =>
        (writes_requireSame l l').bind fun _ _ => writes_value
  | recursive inner min max =>
    rw [Selector.literals] at hs
    rw [selector, governed_selectorRule]
    exact writes_ofExcept_bind fun depth _ =>
      writes_unrolled (fun c => writes_selector hplain limits inner hs c) min depth context
  | grouping inner =>
    rw [Selector.literals] at hs
    rw [selector, governed_selectorRule]
    exact writes_selector hplain limits inner hs context
  | testing delegate t =>
    rw [Selector.literals, List.forall_mem_append] at hs
    rw [selector, governed_selectorRule]
    exact (writes_selector hplain limits delegate hs.1 context).bind fun value _ =>
      (writes_test hplain limits t hs.2 value).bind fun e he =>
        (writes_require he).bind fun _ _ => writes_value
  | function name args =>
    rw [Selector.literals] at hs
    rw [selector, governed_selectorRule]
    refine writes_ofExcept_bind fun f hf =>
      (writes_operands hplain limits args hs context).bind fun values hvalues =>
        writes_ofExcept_bind fun e he => writes_bindFresh ?_
    obtain ⟨b, rfl⟩ := Registry.exists_call hf he
    rwa [Expr.terms]
  | self =>
    rw [selector, governed_selectorRule]
    exact writes_value
  | wildcard =>
    rw [selector, governed_selectorRule]
    exact writes_fresh.bind fun _ _ => writes_fresh.bind fun _ _ =>
      (writes_triple _ _ _ (by simp [Term.Admits])).bind fun _ _ => writes_value
  | constant n =>
    rw [Selector.literals] at hs
    rw [selector, governed_selectorRule]
    exact writes_bindFresh (by simpa [Expr.terms, Node.admits_iff] using hs)

private theorem writes_operands (hplain : ∀ value, ok (.plain value)) (limits : RecursionLimits)
    (args : List Selector) (hargs : ∀ l ∈ Selector.allLiterals args, ok l) (context : Variable) :
    (operands .builtin limits args context).Writes (Term.Admits ok) Expr.listTerms := by
  cases args with
  | nil =>
    rw [operands]
    exact writes_done (by simp [Expr.listTerms])
  | cons s rest =>
    rw [Selector.allLiterals, List.forall_mem_append] at hargs
    rw [operands]
    refine (writes_asOperand hargs.1 (writes_selector hplain limits s hargs.1 context)).bind
      fun e he => (writes_operands hplain limits rest hargs.2 context).bind fun more hmore =>
        writes_done ?_
    rw [Expr.listTerms, List.forall_mem_append]
    exact ⟨he, hmore⟩

private theorem writes_test (hplain : ∀ value, ok (.plain value)) (limits : RecursionLimits)
    (t : Test) (ht : ∀ l ∈ t.literals, ok l) (context : Variable) :
    (test .builtin limits t context).Writes (Term.Admits ok) Expr.terms := by
  cases t with
  | isA type =>
    rw [Test.literals] at ht
    by_cases htype : ∃ i, type = .constant (.iri i)
    · obtain ⟨i, rfl⟩ := htype
      rw [test, governed_testRule]
      exact (writes_triple _ _ _ (by simp [Term.Admits, Term.iri])).bind fun _ _ =>
        writes_done (by simp [Expr.terms])
    · rw [test, governed_testRule]
      · exact writes_fresh.bind fun found _ =>
          (writes_triple _ _ _ (by simp [Term.Admits, Term.iri])).bind fun _ _ =>
            (writes_asOperand ht (writes_selector hplain limits type ht context)).bind
              fun expected he => writes_done (by
                simpa [Expr.equals, Expr.terms, Expr.var, Term.Admits] using he)
      · exact fun i hi => htype ⟨i, hi⟩
  | and left right =>
    rw [Test.literals, List.forall_mem_append] at ht
    rw [test, governed_testRule]
    exact (writes_enclosed (writes_test hplain limits left ht.1 context)).bind fun l hl =>
      (writes_enclosed (writes_test hplain limits right ht.2 context)).bind fun l' hl' =>
        writes_done (Expr.admits_both hl hl')
  | or left right =>
    rw [Test.literals, List.forall_mem_append] at ht
    rw [test, governed_testRule]
    exact (writes_enclosed (writes_test hplain limits left ht.1 context)).bind fun l hl =>
      (writes_enclosed (writes_test hplain limits right ht.2 context)).bind fun l' hl' =>
        writes_done (Expr.admits_oneOf hl hl')
  | not inner =>
    rw [Test.literals] at ht
    rw [test, governed_testRule]
    exact (writes_enclosed (writes_test hplain limits inner ht context)).bind fun e he =>
      writes_done (by rwa [Expr.terms])
  | comparison op left right =>
    rw [Test.literals, List.forall_mem_append] at ht
    rw [test, governed_testRule]
    exact writes_compared op ht.1 ht.2 (writes_selector hplain limits left ht.1 context)
      (writes_selector hplain limits right ht.2 context)
  | pathEquality left right =>
    rw [Test.literals, List.forall_mem_append] at ht
    rw [test, governed_testRule]
    exact writes_compared .eq ht.1 ht.2 (writes_selector hplain limits left ht.1 context)
      (writes_selector hplain limits right ht.2 context)
  | pathExists path =>
    rw [Test.literals] at ht
    rw [test, governed_testRule]
    exact (writes_selector hplain limits path ht context).bind fun _ _ =>
      writes_done (by simp [Expr.terms])
  | language tag =>
    rw [test, governed_testRule]
    exact writes_done (by
      simp [languageCondition, Expr.terms, Expr.listTerms, Expr.var, Expr.literal, Term.literal,
        Term.Admits, hplain])
  | datatype type =>
    rw [test, governed_testRule]
    exact writes_done (by
      simp [datatypeCondition, Expr.equals, Expr.terms, Expr.listTerms, Expr.var, Term.iri,
        Term.Admits])

end

end

/-! ## Sessions -/

/-- The node that stands in the condition. A text that is to occur in a value is a plain one. -/
def Constraint.printed (c : Constraint) : Node :=
  match c.op with
  | .comparison _ => c.expected
  | .contains => .literal (.plain c.expected.text)

private theorem Constraint.terms_condition (c : Constraint) (value : Variable) :
    (c.condition value).terms = [.var value, .node c.printed] := by
  unfold condition printed
  cases c.op <;> simp [Expr.terms, Expr.listTerms, Expr.var, Expr.literal, Term.literal]

/-- The literals in the path and in the condition of a criterion. -/
def Criterion.literals (c : Criterion) : List Literal :=
  c.selector.literals ++ c.constraint.toList.flatMap fun k => k.printed.literals

private theorem Criterion.writes_emit {ok : Literal → Prop} (hplain : ∀ value, ok (.plain value))
    (limits : RecursionLimits) {c : Criterion} (hc : ∀ l ∈ c.literals, ok l) (root : Variable) :
    (c.emit .builtin limits root).Writes (Term.Admits ok) termless := by
  rw [literals, List.forall_mem_append] at hc
  refine (writes_selector hplain limits c.selector hc.1 root).bind fun value _ => ?_
  split
  · next k hk =>
    refine writes_write ?_
    rw [Element.terms, k.terms_condition, List.forall_mem_cons, List.forall_mem_singleton,
      Node.admits_iff]
    exact ⟨trivial, by simpa [hk] using hc.2⟩
  · exact writes_value

namespace Session

/-- The literals in the paths and conditions of a session. -/
def literals (s : Session) : List Literal :=
  s.criteria.flatMap Criterion.literals ++ s.orderBy.flatMap fun key => key.1.literals

variable {ok : Literal → Prop} {s : Session}

private theorem writes_emitOrder (hplain : ∀ value, ok (.plain value))
    (hregistry : s.registry = .builtin) {key : Selector × Direction}
    (hkey : ∀ l ∈ key.1.literals, ok l) :
    (s.emitOrder key).Writes (Term.Admits ok) termless := by
  unfold emitOrder
  rw [hregistry]
  refine (writes_captured (writes_selector hplain _ key.1 hkey s.root)).bind fun x hx => ?_
  obtain ⟨target, inner⟩ := x
  rw [List.forall_mem_append] at hx
  dsimp only
  split
  · exact (writes_write (e := .optional inner) (by rw [Element.terms]; exact hx.2)).bind fun _ _ =>
      writes_value
  · exact writes_value

private theorem writes_emit (hplain : ∀ value, ok (.plain value))
    (hregistry : s.registry = .builtin) (hs : ∀ l ∈ s.literals, ok l) :
    s.emit.Writes (Term.Admits ok) (List.flatMap termless) := by
  rw [literals, List.forall_mem_append, List.forall_mem_flatMap, List.forall_mem_flatMap] at hs
  have htypes : ∀ m ∈ s.types.map (emitType s.root), m.Writes (Term.Admits ok) termless := by
    rw [List.forall_mem_map]
    exact fun i _ => writes_triple _ _ _ (by simp [Term.Admits, Term.iri])
  have hcriteria : ∀ m ∈ s.criteria.map fun c => c.emit s.registry s.settings.recursion s.root,
      m.Writes (Term.Admits ok) termless := by
    rw [List.forall_mem_map, hregistry]
    exact fun c hc => c.writes_emit hplain _ (hs.1 c hc) _
  have horders : ∀ m ∈ s.orderBy.map s.emitOrder, m.Writes (Term.Admits ok) termless := by
    rw [List.forall_mem_map]
    exact fun key hkey => writes_emitOrder hplain hregistry (hs.2 key hkey)
  exact (writes_inOrder htypes).bind fun _ _ => (writes_inOrder hcriteria).bind fun _ _ =>
    writes_inOrder horders

/-- The literals of the query are those of the session and plain texts. -/
theorem admits_of_build (ok : Literal → Prop) (hplain : ∀ value, ok (.plain value))
    (hregistry : s.registry = .builtin) (hs : ∀ l ∈ s.literals, ok l) {q : Query}
    (hbuild : s.build = .ok q) :
    ∀ t ∈ Element.groupTerms q.pattern, t.Admits ok := by
  obtain ⟨em, hem, hq⟩ := exists_of_bind_ok hbuild
  cases hq
  exact (writes_emit hplain hregistry hs _ em hem).1

end Session

end GraphPath
