import GraphPath.Proofs.Equivariance

/-!
# Two compilations side by side

A selector may be compiled in two ways that take different variables. Links say how the variables of
the two correspond: some of the first are called by another name in the second, some of the second
stand for a fixed node, and some of either are bound by no row. One group follows another if from
linked rows the two lead to linked rows, and rows that are linked pass the filters of both or of
neither. The second may have further rows, as long as its filters refuse them whatever is still to
come.
-/

namespace GraphPath

open Emit Compile

structure Links where
  /-- The variables of the first compilation that have a counterpart. -/
  shared : Set Variable
  name : Variable → Variable
  /-- Variables of the second that stand for a node. -/
  fixed : Set (Variable × Node)
  /-- Variables of the first that no row binds. -/
  idle : Set Variable
  /-- Variables of the second that no row binds. -/
  idle' : Set Variable

/-- The rows say the same of linked variables. -/
structure Row.Linked (L : Links) (r r' : Row) : Prop where
  shared : Row.Mirrors L.name L.shared r r'
  fixed : ∀ p ∈ L.fixed, r'.value? p.1 = some p.2
  idle : ∀ v ∈ L.idle, r.value? v = none
  idle' : ∀ v ∈ L.idle', r'.value? v = none

namespace Links

/-- The second variable is the counterpart of the first. -/
def Names (L : Links) (v v' : Variable) : Prop := v ∈ L.shared ∧ v' = L.name v

/-- The second expression has the value of the first in linked rows. -/
def Values (D : List Quad) (L : Links) (e e' : Expr) : Prop :=
  ∀ y y', Row.Linked L y y' → Expr.value? D e' y' = Expr.value? D e y

/-- The linked variables were given before, no two of them to one counterpart, and no variable is
linked in two ways. -/
structure Sound (L : Links) (a b : Allocator) : Prop where
  injOn : Set.InjOn L.name L.shared
  left : ∀ v ∈ L.shared, ¬ a.Pending v
  right : ∀ v ∈ L.shared, ¬ b.Pending (L.name v)
  fixed : ∀ p ∈ L.fixed, ¬ b.Pending p.1 ∧ ∀ v ∈ L.shared, L.name v ≠ p.1
  idle : ∀ v ∈ L.idle, ¬ a.Pending v ∧ v ∉ L.shared
  idle' : ∀ v ∈ L.idle', ¬ b.Pending v ∧ ∀ w ∈ L.shared, L.name w ≠ v

/-- The second has the links of the first, and perhaps more. -/
structure Below (L L' : Links) : Prop where
  shared : L.shared ⊆ L'.shared
  name : ∀ v ∈ L.shared, L'.name v = L.name v
  fixed : L.fixed ⊆ L'.fixed
  idle : L.idle ⊆ L'.idle
  idle' : L.idle' ⊆ L'.idle'

/-- A variable and its counterpart, and nothing else. -/
def start (v v' : Variable) : Links := ⟨{v}, fun _ => v', ∅, ∅, ∅⟩

/-- One more variable with its counterpart. -/
def share (L : Links) (v v' : Variable) : Links :=
  { L with shared := insert v L.shared, name := Function.update L.name v v' }

/-- One more variable of the second that stands for a node. -/
def fix (L : Links) (v : Variable) (n : Node) : Links := { L with fixed := insert (v, n) L.fixed }

/-- Further variables that no row binds. -/
def rest (L : Links) (V V' : Set Variable) : Links :=
  { L with idle := L.idle ∪ V, idle' := L.idle' ∪ V' }

variable {L L' L'' : Links} {a a' b b' : Allocator} {v v' : Variable}

theorem Below.refl (L : Links) : L.Below L :=
  ⟨subset_rfl, fun _ _ => rfl, subset_rfl, subset_rfl, subset_rfl⟩

theorem Below.trans (h : L.Below L') (h' : L'.Below L'') : L.Below L'' :=
  ⟨h.shared.trans h'.shared, fun v hv => (h'.name v (h.shared hv)).trans (h.name v hv),
    h.fixed.trans h'.fixed, h.idle.trans h'.idle, h.idle'.trans h'.idle'⟩

theorem Names.mono (h : L.Names v v') (hle : L.Below L') : L'.Names v v' :=
  ⟨hle.shared h.1, h.2.trans (hle.name v h.1).symm⟩

theorem below_share (hv : v ∉ L.shared) : L.Below (L.share v v') := by
  refine ⟨Set.subset_insert _ _, fun w hw => ?_, subset_rfl, subset_rfl, subset_rfl⟩
  have hne : w ≠ v := fun heq => hv (heq ▸ hw)
  exact Function.update_of_ne hne _ _

theorem names_share (L : Links) (v v' : Variable) : (L.share v v').Names v v' :=
  ⟨Set.mem_insert _ _, (Function.update_self v v' L.name).symm⟩

theorem below_fix (L : Links) (v : Variable) (n : Node) : L.Below (L.fix v n) :=
  ⟨subset_rfl, fun _ _ => rfl, Set.subset_insert _ _, subset_rfl, subset_rfl⟩

theorem below_rest (L : Links) (V V' : Set Variable) : L.Below (L.rest V V') :=
  ⟨subset_rfl, fun _ _ => rfl, subset_rfl, Set.subset_union_left, Set.subset_union_left⟩

theorem names_start (v v' : Variable) : (start v v').Names v v' := ⟨rfl, rfl⟩

theorem sound_start (hv : ¬ a.Pending v) (hv' : ¬ b.Pending v') : (start v v').Sound a b := by
  refine ⟨?_, ?_, fun _ _ => hv', fun _ hp => hp.elim, fun _ hw => hw.elim, fun _ hw => hw.elim⟩
  · rintro x rfl y rfl -
    rfl
  · rintro x rfl
    exact hv

private theorem Sound.later (h : L.Sound a b) (ha : a.Precedes a') (hb : b.Precedes b') :
    L.Sound a' b' where
  injOn := h.injOn
  left v hv hp := h.left v hv (ha v hp)
  right v hv hp := h.right v hv (hb _ hp)
  fixed p hp := ⟨fun hpending => (h.fixed p hp).1 (hb _ hpending), (h.fixed p hp).2⟩
  idle v hv := ⟨fun hpending => (h.idle v hv).1 (ha _ hpending), (h.idle v hv).2⟩
  idle' v hv := ⟨fun hpending => (h.idle' v hv).1 (hb _ hpending), (h.idle' v hv).2⟩

theorem Sound.not_shared (h : L.Sound a b) (hv : a.Pending v) : v ∉ L.shared :=
  fun hmem => h.left v hmem hv

theorem Sound.share (h : L.Sound a b) (ha : a.Precedes a') (hb : b.Precedes b')
    (hv : a.Spent a' v) (hv' : b.Spent b' v') : (L.share v v').Sound a' b' := by
  have hlater := h.later ha hb
  have hname : ∀ w ∈ L.shared, (L.share v v').name w = L.name w := fun w hw =>
    (below_share (h.not_shared hv.1)).name w hw
  have hself : (L.share v v').name v = v' := Function.update_self ..
  have hcases : ∀ w ∈ (L.share v v').shared, w = v ∨ w ∈ L.shared := fun w hw => hw
  have hright : ∀ w ∈ L.shared, L.name w ≠ v' := fun w hw heq => h.right w hw (heq ▸ hv'.1)
  refine ⟨fun x hx y hy heq => ?_, fun w hw => ?_, fun w hw => ?_, fun p hp => ⟨?_, fun w hw => ?_⟩,
    fun w hw => ⟨?_, fun hmem => ?_⟩, fun w hw => ⟨?_, fun u hu => ?_⟩⟩
  · rcases hcases x hx with rfl | hx' <;> rcases hcases y hy with rfl | hy'
    · rfl
    · rw [hself, hname y hy'] at heq
      exact absurd heq.symm (hright y hy')
    · rw [hself, hname x hx'] at heq
      exact absurd heq (hright x hx')
    · rw [hname x hx', hname y hy'] at heq
      exact h.injOn hx' hy' heq
  · rcases hcases w hw with rfl | hw
    · exact hv.2
    · exact hlater.left w hw
  · rcases hcases w hw with rfl | hw
    · rw [hself]
      exact hv'.2
    · rw [hname w hw]
      exact hlater.right w hw
  · exact (hlater.fixed p hp).1
  · rcases hcases w hw with rfl | hw
    · rw [hself]
      exact fun heq => (h.fixed p hp).1 (heq ▸ hv'.1)
    · rw [hname w hw]
      exact (h.fixed p hp).2 w hw
  · exact (hlater.idle w hw).1
  · rcases hcases w hmem with rfl | hmem
    · exact (h.idle w hw).1 hv.1
    · exact (h.idle w hw).2 hmem
  · exact (hlater.idle' w hw).1
  · rcases hcases u hu with rfl | hu
    · rw [hself]
      exact fun heq => (h.idle' w hw).1 (heq ▸ hv'.1)
    · rw [hname u hu]
      exact (h.idle' w hw).2 u hu

theorem Sound.fix (h : L.Sound a b) (hb : b.Precedes b') (hv' : b.Spent b' v') (n : Node) :
    (L.fix v' n).Sound a b' := by
  have hlater := h.later (.refl a) hb
  refine ⟨h.injOn, h.left, hlater.right, ?_, h.idle, hlater.idle'⟩
  rintro p (rfl | hp)
  · exact ⟨hv'.2, fun w hw heq => h.right w hw (heq ▸ hv'.1)⟩
  · exact hlater.fixed p hp

theorem Sound.rest (h : L.Sound a b) (ha : a.Precedes a') (hb : b.Precedes b') :
    (L.rest {v | a.Spent a' v} {v | b.Spent b' v}).Sound a' b' := by
  have hlater := h.later ha hb
  refine ⟨h.injOn, hlater.left, hlater.right, hlater.fixed, ?_, ?_⟩
  · rintro v (hv | hv)
    · exact hlater.idle v hv
    · exact ⟨hv.2, h.not_shared hv.1⟩
  · rintro v (hv | hv)
    · exact hlater.idle' v hv
    · exact ⟨hv.2, fun w hw heq => h.right w hw (heq ▸ hv.1)⟩

end Links

namespace Row.Linked

variable {L L' : Links} {r r' : Row}

theorem mono (h : Row.Linked L' r r') (hle : L.Below L') : Row.Linked L r r' where
  shared v hv := by rw [← hle.name v hv, h.shared v (hle.shared hv)]
  fixed p hp := h.fixed p (hle.fixed hp)
  idle v hv := h.idle v (hle.idle hv)
  idle' v hv := h.idle' v (hle.idle' hv)

theorem value?_eq (h : Row.Linked L r r') {v v' : Variable} (hv : L.Names v v') :
    r'.value? v' = r.value? v := by rw [hv.2, h.shared v hv.1]

theorem share (h : Row.Linked L r r') {v v' : Variable} (hv : v ∉ L.shared)
    (hvalue : r'.value? v' = r.value? v) : Row.Linked (L.share v v') r r' where
  shared w hw := by
    rcases hw with rfl | hw
    · rw [← (Links.names_share L w v').2, hvalue]
    · rw [(Links.below_share hv).name w hw, h.shared w hw]
  fixed := h.fixed
  idle := h.idle
  idle' := h.idle'

theorem start {v v' : Variable} (h : r'.value? v' = r.value? v) :
    Row.Linked (.start v v') r r' where
  shared w hw := by
    obtain rfl : w = v := hw
    exact h
  fixed _ hp := hp.elim
  idle _ hw := hw.elim
  idle' _ hw := hw.elim

theorem congr {x x' : Row} (h : Row.Linked L r r') (hx : ∀ v ∈ L.shared, x.value? v = r.value? v)
    (hx' : ∀ v ∈ L.shared, x'.value? (L.name v) = r'.value? (L.name v))
    (hfixed : ∀ p ∈ L.fixed, x'.value? p.1 = r'.value? p.1)
    (hidle : ∀ v ∈ L.idle, x.value? v = r.value? v)
    (hidle' : ∀ v ∈ L.idle', x'.value? v = r'.value? v) : Row.Linked L x x' where
  shared v hv := by rw [hx' v hv, hx v hv, h.shared v hv]
  fixed p hp := by rw [hfixed p hp, h.fixed p hp]
  idle v hv := by rw [hidle v hv, h.idle v hv]
  idle' v hv := by rw [hidle' v hv, h.idle' v hv]

end Row.Linked

theorem Links.Values.mono {D : List Quad} {L L' : Links} {e e' : Expr} (h : L.Values D e e')
    (hle : L.Below L') : L'.Values D e e' :=
  fun y y' hlinked => h y y' (hlinked.mono hle)

/-- One group follows another, between the allocators from which they were compiled and those that
were left. -/
structure Group.Follows (D : List Quad) (L L' : Links) (a a' b b' : Allocator) (g g' : Group) :
    Prop where
  later : a.Precedes a'
  later' : b.Precedes b'
  avoids : ∀ r x, r.Avoids a → x ∈ Element.steps D g r → x.Avoids a'
  avoids' : ∀ r x, r.Avoids b → x ∈ Element.steps D g' r → x.Avoids b'
  forth : ∀ r r' x, r.Avoids a → r'.Avoids b → Row.Linked L r r' → x ∈ Element.steps D g r →
    ∃ x' ∈ Element.steps D g' r', Row.Linked L' x x'
  back : ∀ r r' x', r.Avoids a → r'.Avoids b → Row.Linked L r r' → x' ∈ Element.steps D g' r' →
    (∃ x ∈ Element.steps D g r, Row.Linked L' x x') ∨
      ∀ y', x'.Below y' → Element.holdAll D g' y' = false
  holds : ∀ y y', Row.Linked L' y y' → Element.holdAll D g' y' = Element.holdAll D g y

namespace Group.Follows

variable {D : List Quad} {L L₁ L₂ : Links} {a a₁ a₂ b b₁ b₂ : Allocator} {g g' k k' : Group}

theorem of_single {f f' : Row → Row} (ha : a.Precedes a₁) (hb : b.Precedes b₁)
    (hsteps : ∀ r, r.Avoids a → Element.steps D g r = [f r] ∧ (f r).Avoids a₁)
    (hsteps' : ∀ r, r.Avoids b → Element.steps D g' r = [f' r] ∧ (f' r).Avoids b₁)
    (hlinked : ∀ r r', r.Avoids a → r'.Avoids b → Row.Linked L r r' → Row.Linked L₁ (f r) (f' r'))
    (hholds : ∀ y y', Row.Linked L₁ y y' → Element.holdAll D g' y' = Element.holdAll D g y) :
    Follows D L L₁ a a₁ b b₁ g g' where
  later := ha
  later' := hb
  avoids r x hr hx := by
    rw [(hsteps r hr).1, List.mem_singleton] at hx
    exact hx ▸ (hsteps r hr).2
  avoids' r x hr hx := by
    rw [(hsteps' r hr).1, List.mem_singleton] at hx
    exact hx ▸ (hsteps' r hr).2
  forth r r' x hr hr' h hx := by
    rw [(hsteps r hr).1, List.mem_singleton] at hx
    refine ⟨f' r', ?_, hx ▸ hlinked r r' hr hr' h⟩
    rw [(hsteps' r' hr').1, List.mem_singleton]
  back r r' x hr hr' h hx := by
    rw [(hsteps' r' hr').1, List.mem_singleton] at hx
    refine .inl ⟨f r, ?_, hx ▸ hlinked r r' hr hr' h⟩
    rw [(hsteps r hr).1, List.mem_singleton]
  holds := hholds

theorem nil (ha : a.Precedes a₁) (hb : b.Precedes b₁)
    (h : ∀ r r', r.Avoids a → r'.Avoids b → Row.Linked L r r' → Row.Linked L₁ r r') :
    Follows D L L₁ a a₁ b b₁ [] [] :=
  of_single ha hb (fun _ hr => ⟨rfl, hr.later ha⟩) (fun _ hr => ⟨rfl, hr.later hb⟩) h
    fun _ _ _ => rfl

theorem append (h : Follows D L L₁ a a₁ b b₁ g g') (h' : Follows D L₁ L₂ a₁ a₂ b₁ b₂ k k')
    (hle : L₁.Below L₂) : Follows D L L₂ a a₂ b b₂ (g ++ k) (g' ++ k') where
  later := h.later.trans h'.later
  later' := h.later'.trans h'.later'
  avoids r x hr hx := by
    rw [Element.steps_append, List.mem_flatMap] at hx
    obtain ⟨x₁, hx₁, hx⟩ := hx
    exact h'.avoids x₁ x (h.avoids r x₁ hr hx₁) hx
  avoids' r x hr hx := by
    rw [Element.steps_append, List.mem_flatMap] at hx
    obtain ⟨x₁, hx₁, hx⟩ := hx
    exact h'.avoids' x₁ x (h.avoids' r x₁ hr hx₁) hx
  forth r r' x hr hr' hlinked hx := by
    rw [Element.steps_append, List.mem_flatMap] at hx
    obtain ⟨x₁, hx₁, hx⟩ := hx
    obtain ⟨x₁', hx₁', hlinked₁⟩ := h.forth r r' x₁ hr hr' hlinked hx₁
    obtain ⟨x', hx', hlinked₂⟩ := h'.forth x₁ x₁' x (h.avoids r x₁ hr hx₁)
      (h.avoids' r' x₁' hr' hx₁') hlinked₁ hx
    refine ⟨x', ?_, hlinked₂⟩
    rw [Element.steps_append, List.mem_flatMap]
    exact ⟨x₁', hx₁', hx'⟩
  back r r' x' hr hr' hlinked hx' := by
    rw [Element.steps_append, List.mem_flatMap] at hx'
    obtain ⟨x₁', hx₁', hx'⟩ := hx'
    rcases h.back r r' x₁' hr hr' hlinked hx₁' with ⟨x₁, hx₁, hlinked₁⟩ | hdoomed
    · rcases h'.back x₁ x₁' x' (h.avoids r x₁ hr hx₁) (h.avoids' r' x₁' hr' hx₁') hlinked₁ hx'
        with ⟨x, hx, hlinked₂⟩ | hdoomed
      · refine .inl ⟨x, ?_, hlinked₂⟩
        rw [Element.steps_append, List.mem_flatMap]
        exact ⟨x₁, hx₁, hx⟩
      · refine .inr fun y' hy' => ?_
        rw [Element.holdAll_append, hdoomed y' hy', Bool.and_false]
    · refine .inr fun y' hy' => ?_
      rw [Element.holdAll_append, hdoomed y' ((Element.steps_grows hx').below.trans hy'),
        Bool.false_and]
  holds y y' hlinked := by
    rw [Element.holdAll_append, Element.holdAll_append, h.holds y y' (hlinked.mono hle),
      h'.holds y y' hlinked]

/-- What the two groups find from linked rows is linked, both ways. -/
theorem found (h : Follows D L L₁ a a₁ b b₁ g g') {r r' : Row} (hr : r.Avoids a)
    (hr' : r'.Avoids b) (hlinked : Row.Linked L r r') :
    (∀ x ∈ Group.found D g r, ∃ x' ∈ Group.found D g' r', Row.Linked L₁ x x') ∧
      ∀ x' ∈ Group.found D g' r', ∃ x ∈ Group.found D g r, Row.Linked L₁ x x' := by
  refine ⟨fun x hx => ?_, fun x' hx' => ?_⟩
  · obtain ⟨hsteps, hholds⟩ := List.mem_filter.1 hx
    obtain ⟨x', hx', hlinked'⟩ := h.forth r r' x hr hr' hlinked hsteps
    exact ⟨x', List.mem_filter.2 ⟨hx', (h.holds x x' hlinked').trans hholds⟩, hlinked'⟩
  · obtain ⟨hsteps, hholds⟩ := List.mem_filter.1 hx'
    rcases h.back r r' x' hr hr' hlinked hsteps with ⟨x, hx, hlinked'⟩ | hdoomed
    · exact ⟨x, List.mem_filter.2 ⟨hx, (h.holds x x' hlinked').symm.trans hholds⟩, hlinked'⟩
    · rw [hdoomed x' (.refl x')] at hholds
      cases hholds

theorem renamed (hL : L.Sound a b) {e : Element} (he : ∀ v ∈ e.vars, v ∈ L.shared) :
    Follows D L L a a b b [e] [e.rename L.name] := by
  have hsteps (e : Element) (r : Row) : Element.steps D [e] r = Element.step D e r := by
    simp [Element.steps]
  have hvars : ∀ v, v ∈ (e.rename L.name).vars → ∃ w ∈ L.shared, v = L.name w := by
    intro v hv
    rw [Element.vars_rename, List.mem_map] at hv
    obtain ⟨w, hw, rfl⟩ := hv
    exact ⟨w, he w hw, rfl⟩
  -- What is linked in another way than by a name is not touched on either side.
  have hlink : ∀ r r' x x', Row.Linked L r r' → x ∈ Element.step D e r →
      x' ∈ Element.step D (e.rename L.name) r' → Row.Mirrors L.name L.shared x x' →
      Row.Linked L x x' := by
    intro r r' x x' hlinked hx hx' hmirrors
    have houtside := (Element.step_grows hx).outside
    have houtside' := (Element.step_grows hx').outside
    refine ⟨hmirrors, fun p hp => ?_, fun v hv => ?_, fun v hv => ?_⟩
    · rw [houtside' p.1 fun hmem => ?_, hlinked.fixed p hp]
      obtain ⟨w, hw, heq⟩ := hvars p.1 hmem
      exact (hL.fixed p hp).2 w hw heq.symm
    · rw [houtside v fun hmem => (hL.idle v hv).2 (he v hmem), hlinked.idle v hv]
    · rw [houtside' v fun hmem => ?_, hlinked.idle' v hv]
      obtain ⟨w, hw, heq⟩ := hvars v hmem
      exact (hL.idle' v hv).2 w hw heq.symm
  refine ⟨.refl a, .refl b, fun r x hr hx => ?_, fun r x hr hx => ?_,
    fun r r' x hr hr' hlinked hx => ?_, fun r r' x' hr hr' hlinked hx' => .inl ?_,
    fun y y' hlinked => ?_⟩
  · rw [hsteps] at hx
    intro v hv
    rw [(Element.step_grows hx).outside v fun hmem => hL.left v (he v hmem) hv, hr v hv]
  · rw [hsteps] at hx
    intro v hv
    rw [(Element.step_grows hx).outside v fun hmem => ?_, hr v hv]
    obtain ⟨w, hw, rfl⟩ := hvars v hmem
    exact hL.right w hw hv
  · rw [hsteps] at hx
    obtain ⟨x', hx', hmirrors⟩ := exists_of_forall₂_left
      (Element.step_rename hL.injOn D e he hlinked.shared) hx
    exact ⟨x', by rwa [hsteps], hlink r r' x x' hlinked hx hx' hmirrors⟩
  · rw [hsteps] at hx'
    obtain ⟨x, hx, hmirrors⟩ := exists_of_forall₂_right
      (Element.step_rename hL.injOn D e he hlinked.shared) hx'
    exact ⟨x, by rwa [hsteps], hlink r r' x x' hlinked hx hx' hmirrors⟩
  · have hhold := Element.hold_rename hL.injOn D e he hlinked.shared
    simp only [Element.holdAll, hhold]

end Group.Follows

end GraphPath
