import GraphPath.Proofs.Links
import GraphPath.Proofs.Verdicts

/-!
# Steps of compilation that follow one another

One step of compilation follows another if from linked variables the two write groups that follow
one another and give values that are related under the links that they leave. Whatever is compiled
from such steps follows too: sequences, bindings, conditions, repetitions, and alternatives, which
are matched on their own and then joined to what was matched before.
-/

namespace GraphPath

open Emit Compile

/-- The row with a value for one more variable, if there is a value for it. -/
def Row.put (r : Row) (v : Variable) : Option Node → Row
  | some n => r.bind v n
  | none => r

theorem Row.value?_put {r : Row} {v : Variable} (hv : r.value? v = none) (value : Option Node)
    (w : Variable) : (r.put v value).value? w = if w = v then value else r.value? w := by
  cases value with
  | some n => rw [Row.put, Row.value?_bind]
  | none =>
    split
    · next heq => rw [heq, Row.put, hv]
    · rfl

theorem Row.Avoids.value?_put {r : Row} {a : Allocator} {v w : Variable} (hr : r.Avoids a)
    (hv : a.Pending v) (value : Option Node) (hw : ¬ a.Pending w) :
    (r.put v value).value? w = r.value? w := by
  have hne : w ≠ v := fun heq => hw (heq ▸ hv)
  rw [Row.value?_put (hr v hv), if_neg hne]

theorem Row.avoids_put {r : Row} {a a' : Allocator} {v : Variable} (hr : r.Avoids a)
    (ha : a.Precedes a') (hv : a.Spent a' v) (value : Option Node) : (r.put v value).Avoids a' := by
  intro w hw
  have hne : w ≠ v := fun heq => hv.2 (heq ▸ hw)
  rw [Row.value?_put (hr v hv.1), if_neg hne, hr w (ha w hw)]

theorem Element.steps_bind {D : List Quad} {e : Expr} {v : Variable} {r : Row}
    (hv : r.value? v = none) :
    Element.steps D [.bind e v] r = [r.put v (Expr.value? D e r)] := by
  have hstep : Element.step D (.bind e v) r = [r.put v (Expr.value? D e r)] := by
    rw [Element.step, hv]
    cases Expr.value? D e r <;> rfl
  simp [Element.steps, hstep]

theorem Element.holdAll_filterOf (D : List Quad) (e : Expr) (r : Row) :
    Element.holdAll D (filterOf e) r = true ↔ truth? (Expr.value? D e r) = some true := by
  unfold filterOf
  split
  · next halways => simp [Element.holdAll, isAlways_eq_true halways, truth?_always]
  · simp [Element.holdAll, Element.hold]

namespace Group.Tidy

variable {D : List Quad} {c : Variable} {a a' : Allocator} {groups : List Group} {z : Row}

private theorem value?_branch (h : Group.Tidy (· = c) a a' [.union groups])
    (hz : z ∈ Element.branchSteps D groups) {v : Variable} (hv : v ≠ c) (hpending : ¬ a.Pending v) :
    z.value? v = none := by
  apply Element.branchSteps_outside hz
  intro hmem
  have hvars : v ∈ Group.vars [.union groups] := by
    simpa [Group.vars, Element.groupVars, Element.vars] using hmem
  rcases h.vars hvars with heq | hspent
  · exact hv heq
  · exact hpending hspent

private theorem exists_meet? (h : Group.Tidy (· = c) a a' [.union groups])
    (hz : z ∈ Element.branchSteps D groups) {r : Row} (hr : r.Avoids a)
    (hc : ∀ n m, r.value? c = some n → z.value? c = some m → n = m) : ∃ x, r.meet? z = some x := by
  refine ⟨r.merge z, Row.meet?_eq_some_iff.2 ⟨Row.agrees_iff.2 fun v n m hn hm => ?_, rfl⟩⟩
  by_cases hv : v = c
  · subst hv
    exact hc n m hn hm
  · rw [h.value?_branch hz hv (hr.not_pending hn)] at hm
    cases hm

end Group.Tidy

namespace Row.Linked

variable {L : Links} {a b : Allocator} {r r' : Row} {v v' : Variable}

theorem put (h : Row.Linked L r r') (hL : L.Sound a b) (hr : r.Avoids a) (hr' : r'.Avoids b)
    (hv : a.Pending v) (hv' : b.Pending v') (value value' : Option Node) :
    Row.Linked L (r.put v value) (r'.put v' value') := by
  have hkeep {w : Variable} := hr.value?_put hv value (w := w)
  have hkeep' {w : Variable} := hr'.value?_put hv' value' (w := w)
  exact h.congr (fun w hw => hkeep (hL.left w hw)) (fun w hw => hkeep' (hL.right w hw))
    (fun p hp => hkeep' (hL.fixed p hp).1) (fun w hw => hkeep (hL.idle w hw).1)
    fun w hw => hkeep' (hL.idle' w hw).1

private theorem meet {c c' : Variable} {x x' z z' : Row} (h : Row.Linked L r r') (hL : L.Sound a b)
    (hc : L.Names c c') (hz : ∀ v, v ≠ c → ¬ a.Pending v → z.value? v = none)
    (hz' : ∀ v, v ≠ c' → ¬ b.Pending v → z'.value? v = none) (hzc : z'.value? c' = z.value? c)
    (hx : r.meet? z = some x) (hx' : r'.meet? z' = some x') : Row.Linked L x x' := by
  have hvalue := (Row.meet?_spec hx).2.2
  have hvalue' := (Row.meet?_spec hx').2.2
  have hkeep : ∀ v, v ≠ c → ¬ a.Pending v → x.value? v = r.value? v := fun v hne hpending => by
    rw [hvalue, hz v hne hpending, Option.or_none]
  have hkeep' : ∀ v, v ≠ c' → ¬ b.Pending v → x'.value? v = r'.value? v :=
    fun v hne hpending => by rw [hvalue', hz' v hne hpending, Option.or_none]
  have hcontext : L.name c = c' := hc.2.symm
  refine ⟨fun v hv => ?_, fun p hp => ?_, fun v hv => ?_, fun v hv => ?_⟩
  · by_cases heq : v = c
    · subst heq
      rw [hcontext, hvalue, hvalue', h.value?_eq hc, hzc]
    · have hne : L.name v ≠ c' := fun hsame => heq (hL.injOn hv hc.1 (hsame.trans hc.2))
      rw [hkeep v heq (hL.left v hv), hkeep' _ hne (hL.right v hv), h.shared v hv]
  · have hne : p.1 ≠ c' := fun hsame => (hL.fixed p hp).2 c hc.1 (hcontext.trans hsame.symm)
    rw [hkeep' _ hne (hL.fixed p hp).1, h.fixed p hp]
  · have hne : v ≠ c := fun hsame => (hL.idle v hv).2 (hsame ▸ hc.1)
    rw [hkeep v hne (hL.idle v hv).1, h.idle v hv]
  · have hne : v ≠ c' := fun hsame => (hL.idle' v hv).2 c hc.1 (hcontext.trans hsame.symm)
    rw [hkeep' v hne (hL.idle' v hv).1, h.idle' v hv]

theorem fix (h : Row.Linked L r r') {n : Node} (hn : r'.value? v' = some n) :
    Row.Linked (L.fix v' n) r r' := by
  refine ⟨h.shared, ?_, h.idle, h.idle'⟩
  rintro p (rfl | hp)
  · exact hn
  · exact h.fixed p hp

theorem rest (h : Row.Linked L r r') {V V' : Set Variable} (hV : ∀ v ∈ V, r.value? v = none)
    (hV' : ∀ v ∈ V', r'.value? v = none) : Row.Linked (L.rest V V') r r' := by
  refine ⟨h.shared, h.fixed, ?_, ?_⟩
  · rintro v (hv | hv)
    · exact h.idle v hv
    · exact hV v hv
  · rintro v (hv | hv)
    · exact h.idle' v hv
    · exact hV' v hv

end Row.Linked

namespace Emit

variable {α β : Type} {D : List Quad} {L : Links} {R R' : Links → α → α → Prop}
  {S : Links → β → β → Prop}

/-- From linked variables the two steps write groups of which the second follows the first, and give
related values under the links that they leave. -/
def Follows (D : List Quad) (L : Links) (R : Links → α → α → Prop) (m m' : Emit α) : Prop :=
  ∀ a b em em', L.Sound a b → m a = .ok em → m' b = .ok em' →
    ∃ L', L.Below L' ∧ L'.Sound em.allocator em'.allocator ∧ R L' em.value em'.value ∧
      Group.Follows D L L' a em.allocator b em'.allocator em.elements em'.elements

/-- Steps without a value of interest. -/
abbrev Unrelated : Links → α → α → Prop := fun _ _ _ => True

theorem follows_done {x x' : α} (h : R L x x') : Follows D L R (done x) (done x') := by
  rintro a b em em' hL ⟨⟩ ⟨⟩
  exact ⟨L, .refl L, hL, h, .nil (.refl a) (.refl b) fun _ _ _ _ h => h⟩

theorem Follows.bind {m m' : Emit α} {f f' : α → Emit β} (hm : Follows D L R m m')
    (hf : ∀ L' x x', L.Below L' → R L' x x' → Follows D L' S (f x) (f' x')) :
    Follows D L S (m >>= f) (m' >>= f') := by
  intro a b em em' hL hem hem'
  obtain ⟨first, second, hfirst, hsecond, rfl⟩ := bind_ok hem
  obtain ⟨first', second', hfirst', hsecond', rfl⟩ := bind_ok hem'
  obtain ⟨L₁, hle, hL₁, hR, hgroup⟩ := hm a b first first' hL hfirst hfirst'
  obtain ⟨L₂, hle', hL₂, hS, hgroup'⟩ := hf L₁ _ _ hle hR _ _ second second' hL₁ hsecond hsecond'
  exact ⟨L₂, hle.trans hle', hL₂, hS, hgroup.append hgroup' hle'⟩

theorem follows_ofExcept_bind {x x' : Except CompileError β} {f f' : β → Emit α}
    (h : ∀ y y', x = .ok y → x' = .ok y' → Follows D L R (f y) (f' y')) :
    Follows D L R (ofExcept x >>= f) (ofExcept x' >>= f') := by
  intro a b em em' hL hem hem'
  obtain ⟨y, hy, hem⟩ := ofExcept_bind_ok hem
  obtain ⟨y', hy', hem'⟩ := ofExcept_bind_ok hem'
  exact h y y' hy hy' a b em em' hL hem hem'

theorem follows_fresh : Follows D L Links.Names fresh fresh := by
  intro a b em em' hL hem hem'
  obtain rfl := fresh_ok hem
  obtain rfl := fresh_ok hem'
  have hv := hL.not_shared a.fresh_pending
  refine ⟨L.share a.fresh.1 b.fresh.1, Links.below_share hv,
    hL.share a.precedes_fresh b.precedes_fresh a.fresh_spent b.fresh_spent,
    Links.names_share L _ _, .nil a.precedes_fresh b.precedes_fresh ?_⟩
  intro r r' hr hr' hlinked
  exact hlinked.share hv (by rw [hr _ a.fresh_pending, hr' _ b.fresh_pending])

private theorem follows_write {e e' : Element} (he : ∀ v ∈ e.vars, v ∈ L.shared)
    (he' : e' = e.rename L.name) : Follows D L Unrelated (write e) (write e') := by
  rintro a b em em' hL ⟨⟩ ⟨⟩
  subst he'
  exact ⟨L, .refl L, hL, trivial, .renamed hL he⟩

theorem follows_writeTriple {s s' o o' : Variable} {p p' : Term} (hs : L.Names s s')
    (ho : L.Names o o') (hp : ∀ v ∈ p.vars, v ∈ L.shared) (hp' : p' = p.rename L.name) :
    Follows D L Unrelated (writeTriple (.var s) p (.var o))
      (writeTriple (.var s') p' (.var o')) := by
  refine follows_write (fun v hv => ?_) ?_
  · simp only [Element.ofTriple, Element.vars, TriplePattern.vars, Term.vars, List.mem_append,
      List.mem_singleton] at hv
    rcases hv with (rfl | hv) | rfl
    · exact hs.1
    · exact hp v hv
    · exact ho.1
  · rw [hs.2, ho.2, hp']
    rfl

private theorem follows_iterate {f f' : Variable → Emit Variable}
    (h : ∀ L v v', L.Names v v' → Follows D L Links.Names (f v) (f' v')) (n : Nat)
    {v v' : Variable} (hv : L.Names v v') :
    Follows D L Links.Names (iterate f n v) (iterate f' n v') := by
  induction n generalizing L v v' with
  | zero => exact follows_done hv
  | succ n ih => exact (h L v v' hv).bind fun L' w w' _ hw => ih hw

end Emit

namespace Compile

variable {D : List Quad} {L : Links}

theorem follows_bindFresh {e e' : Expr} (h : L.Values D e e') :
    Follows D L Links.Names (bindFresh e) (bindFresh e') := by
  intro a b em em' hL hem hem'
  rw [bindFresh_apply] at hem hem'
  obtain rfl := Except.ok.inj hem
  obtain rfl := Except.ok.inj hem'
  have hv := hL.not_shared a.fresh_pending
  refine ⟨L.share a.fresh.1 b.fresh.1, Links.below_share hv,
    hL.share a.precedes_fresh b.precedes_fresh a.fresh_spent b.fresh_spent,
    Links.names_share L _ _, .of_single a.precedes_fresh b.precedes_fresh
      (fun r hr => ⟨Element.steps_bind (hr _ a.fresh_pending),
        Row.avoids_put hr a.precedes_fresh a.fresh_spent _⟩)
      (fun r hr => ⟨Element.steps_bind (hr _ b.fresh_pending),
        Row.avoids_put hr b.precedes_fresh b.fresh_spent _⟩)
      (fun r r' hr hr' hlinked => ?_) fun _ _ _ => rfl⟩
  refine (hlinked.put hL hr hr' a.fresh_pending b.fresh_pending _ _).share hv ?_
  rw [Row.value?_put (hr _ a.fresh_pending), Row.value?_put (hr' _ b.fresh_pending), if_pos rfl,
    if_pos rfl, h r r' hlinked]

theorem follows_fixed (n : Node) : Follows D L (Links.Values D) (done (.term (.node n)))
    (do
      let v ← bindFresh (.term (.node n))
      return .var v) := by
  intro a b em em' hL hem hem'
  cases hem
  obtain ⟨first, last, hfirst, hlast, rfl⟩ := bind_ok hem'
  cases hlast
  rw [bindFresh_apply] at hfirst
  obtain rfl := Except.ok.inj hfirst
  refine ⟨L.fix b.fresh.1 n, Links.below_fix L _ n, hL.fix b.precedes_fresh b.fresh_spent n,
    fun y y' hlinked => ?_, .of_single (.refl a) b.precedes_fresh
      (fun r hr => ⟨rfl, hr⟩)
      (fun r hr => ⟨Element.steps_bind (hr _ b.fresh_pending),
        Row.avoids_put hr b.precedes_fresh b.fresh_spent _⟩)
      (fun r r' hr hr' hlinked => ?_) fun _ _ _ => rfl⟩
  · exact hlinked.fixed _ (Set.mem_insert _ _)
  · have hkeep := hlinked.put hL hr hr' a.fresh_pending b.fresh_pending none
      (Expr.value? D (.term (.node n)) r')
    refine hkeep.fix ?_
    rw [Row.value?_put (hr' _ b.fresh_pending), if_pos rfl]
    rfl

theorem follows_require {e e' : Expr} (h : ∀ y y', Row.Linked L y y' →
      (truth? (Expr.value? D e' y') = some true ↔ truth? (Expr.value? D e y) = some true)) :
    Follows D L Unrelated (require e) (require e') := by
  intro a b em em' hL hem hem'
  rw [require_apply, ← filterOf] at hem hem'
  obtain rfl := Except.ok.inj hem
  obtain rfl := Except.ok.inj hem'
  refine ⟨L, .refl L, hL, trivial, .of_single (.refl a) (.refl b)
    (fun r hr => ⟨Element.steps_filterOf D e r, hr⟩)
    (fun r hr => ⟨Element.steps_filterOf D e' r, hr⟩) (fun _ _ _ _ hlinked => hlinked)
    fun y y' hlinked => ?_⟩
  rw [Bool.eq_iff_iff, Element.holdAll_filterOf, Element.holdAll_filterOf]
  exact h y y' hlinked

theorem follows_requireSame {l l' k k' : Variable} (hl : L.Names l l') (hk : L.Names k k') :
    Follows D L Unrelated (requireSame l k) (requireSame l' k') := by
  intro a b em em' hL
  have hsame : l' = k' ↔ l = k := by
    rw [hl.2, hk.2]
    exact hL.injOn.eq_iff hl.1 hk.1
  by_cases heq : l = k
  · rw [requireSame, requireSame, if_pos heq, if_pos (hsame.2 heq)]
    exact follows_done (R := Unrelated) trivial a b em em' hL
  · rw [requireSame, requireSame, if_neg heq, if_neg fun heq' => heq (hsame.1 heq')]
    refine follows_write (fun v hv => ?_) ?_ a b em em' hL
    · have hcases : v = l ∨ v = k := by
        simpa [Element.vars, Expr.equals, Expr.var, Expr.vars, Term.vars] using hv
      rcases hcases with rfl | rfl
      · exact hl.1
      · exact hk.1
    · rw [hl.2, hk.2]
      rfl

private theorem follows_writeAnyResource {c c' : Variable} (hc : L.Names c c') :
    Follows D L Unrelated (writeAnyResource c) (writeAnyResource c') := by
  refine follows_fresh.bind fun L₁ p p' h₁ hp => follows_fresh.bind fun L₂ o o' h₂ ho =>
    follows_fresh.bind fun L₃ s s' h₃ hs => follows_fresh.bind fun L₄ q q' h₄ hq => ?_
  replace hc := hc.mono (((h₁.trans h₂).trans h₃).trans h₄)
  replace hp := hp.mono ((h₂.trans h₃).trans h₄)
  replace ho := ho.mono (h₃.trans h₄)
  replace hs := hs.mono h₄
  refine follows_write (fun v hv => ?_) ?_
  · simp only [Element.vars, Element.branchVars, Element.groupVars, Element.ofTriple,
      TriplePattern.vars, Term.vars, List.append_nil, List.mem_append, List.mem_singleton] at hv
    rcases hv with ((rfl | rfl) | rfl) | ((rfl | rfl) | rfl)
    · exact hc.1
    · exact hp.1
    · exact ho.1
    · exact hs.1
    · exact hq.1
    · exact hc.1
  · rw [hc.2, hp.2, ho.2, hs.2, hq.2]
    rfl

end Compile

/-! ## Alternatives -/

/-- On their own, the two groups match the same pairs of values of a context and an output. -/
structure Group.SameEnds (D : List Quad) (c output c' output' : Variable) (g g' : Group) :
    Prop where
  forth : ∀ z ∈ Group.found D g .empty, ∃ z' ∈ Group.found D g' .empty,
    z'.value? c' = z.value? c ∧ z'.value? output' = z.value? output
  back : ∀ z' ∈ Group.found D g' .empty, ∃ z ∈ Group.found D g .empty,
    z'.value? c' = z.value? c ∧ z'.value? output' = z.value? output

namespace Group.Follows

variable {D : List Quad} {L L' : Links} {a a' b b' : Allocator} {g g' : Group}
  {c c' output output' : Variable}

private theorem sameEnds (h : Group.Follows D (.start c c') L' a a' b b' g g') (hc : L'.Names c c')
    (houtput : L'.Names output output') : SameEnds D c output c' output' g g' := by
  obtain ⟨hforth, hback⟩ := h.found (Row.avoids_empty a) (Row.avoids_empty b) (.start (by simp))
  refine ⟨fun z hz => ?_, fun z' hz' => ?_⟩
  · obtain ⟨z', hz', hlinked⟩ := hforth z hz
    exact ⟨z', hz', hlinked.value?_eq hc, hlinked.value?_eq houtput⟩
  · obtain ⟨z, hz, hlinked⟩ := hback z' hz'
    exact ⟨z, hz, hlinked.value?_eq hc, hlinked.value?_eq houtput⟩

/-- Unions of branches with the same ends, joined to linked rows. -/
theorem union {groups groups' : List Group} (hL : L.Sound a b) (hc : L.Names c c')
    (htidy : Group.Tidy (· = c) a a' [.union groups])
    (htidy' : Group.Tidy (· = c') b b' [.union groups']) (houtput : a.Spent a' output)
    (houtput' : b.Spent b' output')
    (hends : List.Forall₂ (SameEnds D c output c' output') groups groups') :
    Group.Follows D L (L.share output output') a a' b b' [.union groups] [.union groups'] := by
  have hsteps (groups : List Group) (r : Row) :
      Element.steps D [.union groups] r = (Element.branchSteps D groups).filterMap r.meet? := by
    simp [Element.steps, Element.step]
  have hlink : ∀ r r' z z' x x', r.Avoids a → r'.Avoids b → Row.Linked L r r' →
      z ∈ Element.branchSteps D groups → z' ∈ Element.branchSteps D groups' →
      z'.value? c' = z.value? c → z'.value? output' = z.value? output →
      r.meet? z = some x → r'.meet? z' = some x' →
      Row.Linked (L.share output output') x x' := by
    intro r r' z z' x x' hr hr' hlinked hz hz' hzc hzo hx hx'
    refine (hlinked.meet hL hc (fun v => htidy.value?_branch hz)
      (fun v => htidy'.value?_branch hz') hzc hx hx').share (hL.not_shared houtput.1) ?_
    rw [(Row.meet?_spec hx).2.2, (Row.meet?_spec hx').2.2, hr _ houtput.1, hr' _ houtput'.1, hzo]
  refine ⟨htidy.later, htidy'.later, fun r x hr hx => htidy.avoids (hL.left c hc.1) hr hx,
    fun r x hr hx => htidy'.avoids (hc.2 ▸ hL.right c hc.1) hr hx,
    fun r r' x hr hr' hlinked hx => ?_, fun r r' x' hr hr' hlinked hx' => .inl ?_,
    fun _ _ _ => rfl⟩
  · rw [hsteps, List.mem_filterMap] at hx
    obtain ⟨z, hz, hx⟩ := hx
    obtain ⟨g, hg, hzg⟩ := Element.mem_branchSteps_iff.1 hz
    obtain ⟨g', hg', hgg'⟩ := exists_of_forall₂_left hends hg
    obtain ⟨z', hzg', hzc, hzo⟩ := hgg'.forth z hzg
    have hz' := Element.mem_branchSteps_iff.2 ⟨g', hg', hzg'⟩
    obtain ⟨x', hx'⟩ : ∃ x', r'.meet? z' = some x' := by
      refine htidy'.exists_meet? hz' hr' fun n m hn hm => ?_
      rw [hlinked.value?_eq hc] at hn
      rw [hzc] at hm
      exact Row.agrees_iff.1 (Row.meet?_eq_some_iff.1 hx).1 c n m hn hm
    refine ⟨x', ?_, hlink r r' z z' x x' hr hr' hlinked hz hz' hzc hzo hx hx'⟩
    rw [hsteps, List.mem_filterMap]
    exact ⟨z', hz', hx'⟩
  · rw [hsteps, List.mem_filterMap] at hx'
    obtain ⟨z', hz', hx'⟩ := hx'
    obtain ⟨g', hg', hzg'⟩ := Element.mem_branchSteps_iff.1 hz'
    obtain ⟨g, hg, hgg'⟩ := exists_of_forall₂_right hends hg'
    obtain ⟨z, hzg, hzc, hzo⟩ := hgg'.back z' hzg'
    have hz := Element.mem_branchSteps_iff.2 ⟨g, hg, hzg⟩
    obtain ⟨x, hx⟩ : ∃ x, r.meet? z = some x := by
      refine htidy.exists_meet? hz hr fun n m hn hm => ?_
      rw [← hlinked.value?_eq hc] at hn
      rw [← hzc] at hm
      exact Row.agrees_iff.1 (Row.meet?_eq_some_iff.1 hx').1 c' n m hn hm
    refine ⟨x, ?_, hlink r r' z z' x x' hr hr' hlinked hz hz' hzc hzo hx hx'⟩
    rw [hsteps, List.mem_filterMap]
    exact ⟨z, hz, hx⟩

-- Allocators that are several variables apart are told apart by name, not by computing them.
attribute [local irreducible] Allocator.fresh

private theorem closing {v v' : Variable} (hL : L.Sound a b) (hc : L.Names c c') (hv : L.Names v v')
    (houtput : L.Names output output') :
    ∃ L', L.Below L' ∧
      L'.Sound (closing c output v a).2 (closing c' output' v' b).2 ∧
      Group.Follows D L L' a (Compile.closing c output v a).2 b (Compile.closing c' output' v' b).2
        (Compile.closing c output v a).1 (Compile.closing c' output' v' b).1 := by
  have hwrite : ∀ L', L.Below L' → Emit.Follows D L' Unrelated
      (write (.bind (.var v) output)) (write (.bind (.var v') output')) := by
    intro L' hle
    have hv' := hv.mono hle
    have houtput' := houtput.mono hle
    refine follows_write (fun w hw => ?_) ?_
    · have hcases : w = v ∨ w = output := by
        simpa [Element.vars, Expr.var, Expr.vars, Term.vars] using hw
      rcases hcases with rfl | rfl
      · exact hv'.1
      · exact houtput'.1
    · rw [hv'.2, houtput'.2]
      rfl
  have hsame : v' = c' ↔ v = c := by
    rw [hv.2, hc.2]
    exact hL.injOn.eq_iff hv.1 hc.1
  by_cases heq : v = c
  · obtain ⟨L', hle, hL', -, hgroup⟩ := ((follows_writeAnyResource hc).bind
      fun L' _ _ hle _ => hwrite L' hle) a b _ _ hL
      (bind_eq_ok (writeAnyResource_apply c a) rfl) (bind_eq_ok (writeAnyResource_apply c' b) rfl)
    rw [Compile.closing, Compile.closing, if_pos heq, if_pos (hsame.2 heq)]
    exact ⟨L', hle, hL', hgroup⟩
  · obtain ⟨L', hle, hL', -, hgroup⟩ := hwrite L (.refl L) a b _ _ hL rfl rfl
    rw [Compile.closing, Compile.closing, if_neg heq, if_neg fun h => heq (hsame.1 h)]
    exact ⟨L', hle, hL', hgroup⟩

end Group.Follows

namespace Compile

variable {D : List Quad} {L : Links} {c c' : Variable}

private theorem sameEnds_closings {branches branches' : List (Emit Variable)}
    {a b a₁ b₁ k k' : Allocator} {ems ems' : List (Emission Variable)} {output output' : Variable}
    (hfollows : List.Forall₂ (Follows D (.start c c') Links.Names) branches branches')
    (hstays : ∀ m ∈ branches, m.Stays (· = c) fun v => [v])
    (hstays' : ∀ m ∈ branches', m.Stays (· = c') fun v => [v]) (hruns : Runs branches a ems a₁)
    (hruns' : Runs branches' b ems' b₁) (hc : ¬ a.Pending c) (hc' : ¬ b.Pending c')
    (hk : a₁.Precedes k) (hk' : b₁.Precedes k') (houtput : a₁.Spent k output)
    (houtput' : b₁.Spent k' output') :
    List.Forall₂ (Group.SameEnds D c output c' output') (closings c output ems k).1
      (closings c' output' ems' k').1 := by
  induction hfollows generalizing a b ems ems' k k' with
  | nil =>
    cases hruns
    cases hruns'
    exact .nil
  | @cons m m' ms ms' hm _ ih =>
    obtain _ | ⟨hhead, htail⟩ := hruns
    obtain _ | ⟨hhead', htail'⟩ := hruns'
    rename_i em ems em' ems'
    have hrest : ∀ m ∈ ms, m.Stays (· = c) fun v => [v] :=
      fun m hm => hstays m (List.mem_cons_of_mem _ hm)
    have hrest' : ∀ m ∈ ms', m.Stays (· = c') fun v => [v] :=
      fun m hm => hstays' m (List.mem_cons_of_mem _ hm)
    have hlast := (htail.forall₂ hrest).1
    have hlast' := (htail'.forall₂ hrest').1
    obtain ⟨L₁, hle₁, hL₁, hvalue, hgroup⟩ := hm a b em em' (Links.sound_start hc hc') hhead hhead'
    -- The output is linked before the branch is closed, and no row binds it yet.
    have hfresh := houtput.earlier hlast
    have hfresh' := houtput'.earlier hlast'
    have hle₂ : L₁.Below (L₁.share output output') := Links.below_share (hL₁.not_shared hfresh.1)
    have hL₂ := hL₁.share (hlast.trans hk) (hlast'.trans hk') hfresh hfresh'
    have hnames := Links.names_share L₁ output output'
    have hpause : Group.Follows D L₁ (L₁.share output output') em.allocator k em'.allocator k'
        [] [] := by
      refine .nil (hlast.trans hk) (hlast'.trans hk') fun r r' hr hr' hlinked => ?_
      exact hlinked.share (hL₁.not_shared hfresh.1) (by rw [hr _ hfresh.1, hr' _ hfresh'.1])
    have hstart := (Links.names_start c c').mono (hle₁.trans hle₂)
    obtain ⟨L₃, hle₃, -, hclosing⟩ := Group.Follows.closing (D := D) hL₂ hstart
      (hvalue.mono hle₂) hnames
    have hbranch := hgroup.append (hpause.append hclosing hle₃) (hle₂.trans hle₃)
    refine .cons (hbranch.sameEnds (hstart.mono hle₃) (hnames.mono hle₃)) ?_
    have hlater := precedes_closing c output em.value k
    have hlater' := precedes_closing c' output' em'.value k'
    exact ih hrest hrest' htail htail' (fun hp => hc (hgroup.later c hp))
      (fun hp => hc' (hgroup.later' c' hp)) (hk.trans hlater) (hk'.trans hlater')
      (houtput.later hlater) (houtput'.later hlater')

theorem follows_alternatives {branches branches' : List (Emit Variable)} (hc : L.Names c c')
    (hstays : ∀ m ∈ branches, m.Stays (· = c) fun v => [v])
    (hstays' : ∀ m ∈ branches', m.Stays (· = c') fun v => [v])
    (h : List.Forall₂ (Follows D (.start c c') Links.Names) branches branches') :
    Follows D L Links.Names (alternatives c branches) (alternatives c' branches') := by
  intro a b em em' hL hem hem'
  have htidy := (stays_alternatives hstays a em hem).1
  have htidy' := (stays_alternatives hstays' b em' hem').1
  obtain ⟨ems, a₁, hruns, rfl⟩ := alternatives_ok hem
  obtain ⟨ems', b₁, hruns', rfl⟩ := alternatives_ok hem'
  have hlast := (hruns.forall₂ hstays).1
  have hlast' := (hruns'.forall₂ hstays').1
  have houtput := (a₁.fresh_spent.later
    (closings_forall₂ c a₁.fresh.1 ems a₁.fresh.2).1).earlier hlast
  have houtput' := (b₁.fresh_spent.later
    (closings_forall₂ c' b₁.fresh.1 ems' b₁.fresh.2).1).earlier hlast'
  have hends := sameEnds_closings h hstays hstays' hruns hruns' (hL.left c hc.1)
    (hc.2 ▸ hL.right c hc.1) a₁.precedes_fresh b₁.precedes_fresh a₁.fresh_spent b₁.fresh_spent
  exact ⟨L.share a₁.fresh.1 b₁.fresh.1, Links.below_share (hL.not_shared houtput.1),
    hL.share htidy.later htidy'.later houtput houtput', Links.names_share L _ _,
    .union hL hc htidy htidy' houtput houtput' hends⟩

theorem follows_unrolled {step step' : Variable → Emit Variable}
    (hstays : ∀ v, (step v).Stays (· = v) fun w => [w])
    (hstays' : ∀ v, (step' v).Stays (· = v) fun w => [w])
    (h : ∀ L v v', L.Names v v' → Follows D L Links.Names (step v) (step' v')) (min bound : Nat)
    (hc : L.Names c c') :
    Follows D L Links.Names (unrolled step min bound c) (unrolled step' min bound c') := by
  unfold unrolled
  split
  · exact follows_iterate h min hc
  · refine follows_alternatives hc ?_ ?_ ?_
    · simp only [List.forall_mem_map]
      exact fun i _ => stays_iterate hstays (min + i) c
    · simp only [List.forall_mem_map]
      exact fun i _ => stays_iterate hstays' (min + i) c'
    · rw [List.forall₂_map_left_iff, List.forall₂_map_right_iff, List.forall₂_same]
      exact fun i _ => follows_iterate h (min + i) (Links.names_start c c')

end Compile

end GraphPath
