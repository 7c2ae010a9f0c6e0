import GraphPath.Proofs.Conjunction
import GraphPath.Proofs.Places

/-!
# Compiling in order

A step of compilation is neat if it keeps to its variables, and if what it writes is orderly
wherever nothing but known variables stands around it. Steps that are neat are so together: each
takes variables of its own, so the places that one gives to the other hold known variables only.
-/

namespace GraphPath

open Emit

namespace Emit

variable {α β : Type} {union : List Group → Prop} {scope : Set Variable → Group → Prop}
  {known : Variable → Prop} {vars : α → List Variable} {vars' : β → List Variable}
  {orderly : Set Variable → Set Variable → α → Prop}
  {orderly' : Set Variable → Set Variable → β → Prop}

/-- What was written is orderly wherever only known variables and those of the value stand around
it, and the value is in order where only known and written variables do. -/
structure Placed (union : List Group → Prop) (scope : Set Variable → Group → Prop)
    (known : Variable → Prop) (vars : α → List Variable)
    (orderly : Set Variable → Set Variable → α → Prop) (a : Allocator) (em : Emission α) : Prop
    extends Within known vars a em where
  elements : ∀ before around, (∀ v ∈ before, v ∈ em.elements.vars → known v) →
    (∀ v ∈ around, v ∈ em.elements.vars → known v ∨ v ∈ vars em.value) →
    Element.GroupOrderly union scope before around em.elements
  value : ∀ before around,
    (∀ v ∈ before, v ∈ vars em.value → known v ∨ v ∈ em.elements.vars) →
    (∀ v ∈ around, v ∈ vars em.value → known v ∨ v ∈ em.elements.vars) →
    orderly before around em.value

/-- The step keeps to its variables and puts them in order. -/
def Neat (union : List Group → Prop) (scope : Set Variable → Group → Prop)
    (known : Variable → Prop) (vars : α → List Variable)
    (orderly : Set Variable → Set Variable → α → Prop) (m : Emit α) : Prop :=
  ∀ a em, (∀ v, known v → ¬ a.Pending v) → m a = .ok em →
    Placed union scope known vars orderly a em

theorem Neat.mono {known' : Variable → Prop} {m : Emit α}
    (h : m.Neat union scope known vars orderly) (hknown : ∀ v, known v → known' v) :
    m.Neat union scope known' vars orderly := by
  intro a em ha hem
  have hem' := h a em (fun v hv => ha v (hknown v hv)) hem
  -- A variable that only the larger class knows was not taken by the step.
  have hwritten : ∀ v, known' v → v ∈ em.elements.vars → known v := fun v hv hmem =>
    (hem'.written v hmem).resolve_right fun hspent => ha v hv hspent.1
  have hvalued : ∀ v, known' v → v ∈ vars em.value → known v := fun v hv hmem =>
    (hem'.valued v hmem).resolve_right fun hspent => ha v hv hspent.1
  refine ⟨⟨hem'.later, fun v hv => (hem'.written v hv).imp_left (hknown v),
    fun v hv => (hem'.valued v hv).imp_left (hknown v)⟩,
    fun before around hbefore haround => hem'.elements before around ?_ ?_,
    fun before around hbefore haround => hem'.value before around ?_ ?_⟩
  · exact fun v hv hmem => hwritten v (hbefore v hv hmem) hmem
  · exact fun v hv hmem => (haround v hv hmem).imp_left fun hv => hwritten v hv hmem
  · exact fun v hv hmem => (hbefore v hv hmem).imp_left fun hv => hvalued v hv hmem
  · exact fun v hv hmem => (haround v hv hmem).imp_left fun hv => hvalued v hv hmem

theorem neat_done (x : α) (hx : ∀ v ∈ vars x, known v)
    (hplain : ∀ before around, orderly before around x) :
    (done x).Neat union scope known vars orderly := by
  rintro a em - ⟨⟩
  exact ⟨⟨.refl a, by simp [Group.vars, Element.groupVars], fun v hv => .inl (hx v hv)⟩,
    fun _ _ _ _ => trivial, fun before around _ _ => hplain before around⟩

/-- Two steps, the second of which may use the value of the first as often as it likes. -/
theorem Neat.bind {m : Emit α} {f : α → Emit β} (hm : m.Neat union scope known vars orderly)
    (hf : ∀ x, orderly ∅ ∅ x →
      (f x).Neat union scope (fun v => known v ∨ v ∈ vars x) vars' orderly') :
    (m >>= f).Neat union scope known vars' orderly' := by
  intro a em ha hem
  obtain ⟨first, second, hfirst, hsecond, rfl⟩ := bind_ok hem
  have h := hm a first ha hfirst
  have hpast : ∀ v, known v ∨ v ∈ vars first.value → ¬ first.allocator.Pending v := by
    rintro v (hv | hv) hpending
    · exact ha v hv (h.later v hpending)
    · rcases h.valued v hv with hv | hv
      · exact ha v hv (h.later v hpending)
      · exact hv.2 hpending
  have h' := hf first.value (h.value ∅ ∅ (by simp) (by simp)) first.allocator second hpast hsecond
  have hspent : ∀ v, known v ∨ a.Spent first.allocator v → known v ∨
      a.Spent second.allocator v := fun v => Or.imp_right fun hv => hv.later h'.later
  have hlast : ∀ v, (known v ∨ v ∈ vars first.value) ∨ first.allocator.Spent second.allocator v →
      known v ∨ a.Spent second.allocator v := by
    rintro v ((hv | hv) | hv)
    · exact .inl hv
    · exact hspent v (h.valued v hv)
    · exact .inr (hv.earlier h.later)
  -- What the second step took is not in the first, so they share what the second one knows.
  have hshared : ∀ v ∈ first.elements.vars,
      (known v ∨ v ∈ vars first.value) ∨ first.allocator.Spent second.allocator v →
        known v ∨ v ∈ vars first.value := by
    rintro v hv (hv' | hv')
    · exact hv'
    · rcases h.written v hv with hv | hv
      · exact .inl hv
      · exact absurd hv'.1 hv.2
  have hmem : ∀ v, v ∈ Group.vars (first.elements ++ second.elements) ↔
      v ∈ first.elements.vars ∨ v ∈ second.elements.vars := fun v => by
    rw [Group.vars, Element.groupVars_append, List.mem_append, Group.vars, Group.vars]
  have hvalue : ∀ v ∈ vars' second.value,
      known v ∨ v ∈ Group.vars (first.elements ++ second.elements) →
        (known v ∨ v ∈ vars first.value) ∨ v ∈ second.elements.vars := by
    rintro v hv (hv' | hv')
    · exact .inl (.inl hv')
    · rcases (hmem v).1 hv' with hv' | hv'
      · exact .inl (hshared v hv' (h'.valued v hv))
      · exact .inr hv'
  refine ⟨⟨h.later.trans h'.later, fun v hv => ?_, fun v hv => hlast v (h'.valued v hv)⟩,
    fun before around hbefore haround => Element.groupOrderly_append (h.elements _ _ ?_ ?_)
      (h'.elements _ _ ?_ ?_), fun before around hbefore haround => h'.value _ _ ?_ ?_⟩
  · rcases (hmem v).1 hv with hv | hv
    · exact hspent v (h.written v hv)
    · exact hlast v (h'.written v hv)
  · exact fun v hv hmem' => hbefore v hv ((hmem v).2 (.inl hmem'))
  · rintro v (hv | hv) hmem'
    · rcases haround v hv ((hmem v).2 (.inl hmem')) with hv | hv
      · exact .inl hv
      · exact hshared v hmem' (h'.valued v hv)
    · exact hshared v hmem' (h'.written v hv)
  · rintro v (hv | hv) hmem'
    · exact .inl (hbefore v hv ((hmem v).2 (.inr hmem')))
    · exact hshared v hv (h'.written v hmem')
  · rintro v (hv | hv) hmem'
    · exact (haround v hv ((hmem v).2 (.inr hmem'))).imp_left .inl
    · exact .inl (hshared v hv (h'.written v hmem'))
  · exact fun v hv hmem' => hvalue v hmem' (hbefore v hv hmem')
  · exact fun v hv hmem' => hvalue v hmem' (haround v hv hmem')

theorem Neat.map {m : Emit α} {wrap : α → β} (h : m.Neat union scope known vars orderly)
    (hvars : ∀ x, vars' (wrap x) = vars x)
    (horderly : ∀ before around x, orderly before around x → orderly' before around (wrap x)) :
    (m >>= fun x => done (wrap x)).Neat union scope known vars' orderly' := by
  intro a em ha hem
  obtain ⟨first, second, hfirst, hsecond, rfl⟩ := bind_ok hem
  cases hsecond
  have hplaced := h a first ha hfirst
  rw [List.append_nil]
  refine ⟨⟨hplaced.later, hplaced.written, ?_⟩, ?_, ?_⟩ <;> dsimp only <;> rw [hvars]
  · exact hplaced.valued
  · exact hplaced.elements
  · exact fun before around hbefore haround =>
      horderly _ _ _ (hplaced.value before around hbefore haround)

theorem neat_fresh : fresh.Neat union scope known (fun v => [v]) fun _ _ _ => True := by
  intro a em _ hem
  have hstays : fresh.Stays known fun v => [v] := stays_fresh
  obtain ⟨htidy, hvalued⟩ := hstays a em hem
  obtain rfl := fresh_ok hem
  exact ⟨⟨htidy.later, htidy.written, hvalued⟩, fun _ _ _ _ => trivial, fun _ _ _ _ => trivial⟩

theorem neat_write {e : Element} (hvars : ∀ v ∈ e.vars, known v)
    (horderly : ∀ before around, e.Orderly union scope before around) :
    (write e).Neat union scope known (fun _ => []) fun _ _ _ => True := by
  rintro a em - ⟨⟩
  refine ⟨⟨.refl a, fun v hv => .inl (hvars v ?_), by simp⟩, fun before around _ _ =>
    Element.groupOrderly_singleton (horderly before around), fun _ _ _ _ => trivial⟩
  simpa [Group.vars, Element.groupVars] using hv

theorem neat_ofExcept_bind {x : Except CompileError β} {f : β → Emit α}
    (h : ∀ y, x = .ok y → (f y).Neat union scope known vars orderly) :
    (ofExcept x >>= f).Neat union scope known vars orderly := by
  intro a em ha hem
  obtain ⟨y, hy, hfy⟩ := ofExcept_bind_ok hem
  exact h y hy a em ha hfy

theorem neat_iterate {f : Variable → Emit Variable}
    (h : ∀ c, (f c).Neat union scope (· = c) (fun v => [v]) fun _ _ _ => True) (n : Nat)
    (c : Variable) :
    (iterate f n c).Neat union scope (· = c) (fun v => [v]) fun _ _ _ => True := by
  induction n generalizing c with
  | zero => exact neat_done c (by simp) fun _ _ => trivial
  | succ n ih =>
    refine (h c).bind fun next _ => (ih next).mono ?_
    rintro v rfl
    simp

end Emit

theorem Emit.Runs.apart {α : Type} {known : Variable → Prop} {vars : α → List Variable}
    {ms : List (Emit α)} {a a' : Allocator} {ems : List (Emission α)} (hruns : Runs ms a ems a')
    (ha : ∀ v, known v → ¬ a.Pending v)
    (h : ∀ m ∈ ms, ∀ b em, (∀ v, known v → ¬ b.Pending v) → m b = .ok em →
      Within known vars b em) :
    a.Precedes a' ∧
      (∀ em ∈ ems, ∀ v ∈ em.elements.vars ++ vars em.value, known v ∨ a.Spent a' v) ∧
      ems.Pairwise fun em em' => ∀ v ∈ em.elements.vars ++ vars em.value,
        v ∈ em'.elements.vars ++ vars em'.value → known v := by
  induction hruns with
  | nil a => exact ⟨.refl a, by simp, .nil⟩
  | @cons m ms a a' em ems head tail ih =>
    have hfirst := h m List.mem_cons_self a em ha head
    obtain ⟨hlater, hwithin, hapart⟩ := ih (fun v hv hp => ha v hv (hfirst.later v hp))
      fun m hm => h m (List.mem_cons_of_mem _ hm)
    have hem : ∀ v ∈ em.elements.vars ++ vars em.value, known v ∨ a.Spent em.allocator v :=
      fun v hv => (List.mem_append.1 hv).elim (hfirst.written v) (hfirst.valued v)
    refine ⟨hfirst.later.trans hlater, ?_, List.pairwise_cons.2 ⟨fun em' hem' v hv hv' => ?_,
      hapart⟩⟩
    · rintro em' hem' v hv
      rcases List.mem_cons.1 hem' with rfl | hem'
      · exact (hem v hv).imp_right fun hv => hv.later hlater
      · exact (hwithin em' hem' v hv).imp_right fun hv => hv.earlier hfirst.later
    · rcases hem v hv with hv | hv
      · exact hv
      · exact (hwithin em' hem' v hv').resolve_right fun hspent => hv.2 hspent.1

theorem Emit.neat_inOrder {α : Type} {union : List Group → Prop}
    {scope : Set Variable → Group → Prop} {known : Variable → Prop} {vars : α → List Variable}
    {ms : List (Emit α)}
    (h : ∀ m ∈ ms, m.Neat union scope known vars fun _ _ _ => True) :
    (inOrder ms).Neat union scope known (fun xs => xs.flatMap vars) fun _ _ _ => True := by
  induction ms with
  | nil => exact neat_done [] (by simp) fun _ _ => trivial
  | cons m ms ih =>
    refine (h m List.mem_cons_self).bind fun x _ =>
      ((ih fun m hm => h m (List.mem_cons_of_mem _ hm)).mono fun v => .inl).bind fun xs _ =>
      neat_done (x :: xs) (fun v hv => ?_) fun _ _ => trivial
    rcases List.mem_append.1 hv with hv | hv
    · exact .inl (.inr hv)
    · exact .inr hv

namespace Compile

variable {union : List Group → Prop} {scope : Set Variable → Group → Prop}
  {known : Variable → Prop}

theorem neat_writeTriple {s p o : Term} (h : ∀ v ∈ TriplePattern.vars ⟨s, p, o⟩, known v) :
    (writeTriple s p o).Neat union scope known (fun _ => []) fun _ _ _ => True :=
  neat_write h fun _ _ => trivial

theorem neat_bindFresh {e : Expr} (h : ∀ v ∈ e.vars, known v) (hplain : e.Plain union scope) :
    (bindFresh e).Neat union scope known (fun v => [v]) fun _ _ _ => True := by
  intro a em ha hem
  obtain ⟨htidy, hvalued⟩ := stays_bindFresh h a em hem
  rw [bindFresh_apply] at hem
  obtain rfl := Except.ok.inj hem
  refine ⟨⟨htidy.later, htidy.written, hvalued⟩, fun before around hbefore _ =>
    Element.groupOrderly_singleton ⟨fun hmem => ?_, hplain _ _⟩, fun _ _ _ _ => trivial⟩
  refine ha _ (hbefore _ hmem ?_) a.fresh_pending
  simp [Group.vars, Element.groupVars, Element.vars]

theorem neat_requireSame {left right : Variable} (hleft : known left) (hright : known right) :
    (requireSame left right).Neat union scope known (fun _ => []) fun _ _ _ => True := by
  unfold requireSame
  split
  · exact neat_done () (by simp) fun _ _ => trivial
  · refine neat_write (fun v hv => ?_) (Expr.plain_compare .eq (Expr.plain_term _)
      (Expr.plain_term _))
    simp only [Element.vars, Expr.equals, Expr.var, Expr.vars, Term.vars, List.mem_append,
      List.mem_singleton] at hv
    rcases hv with rfl | rfl
    · exact hleft
    · exact hright

private theorem orderly_filterOf {before around : Set Variable} {e : Expr}
    (h : e.Orderly union scope before around) :
    Element.GroupOrderly union scope before around (filterOf e) := by
  unfold filterOf
  split
  · trivial
  · exact Element.groupOrderly_singleton h

private theorem orderly_filtered {a : Allocator} {em : Emission Expr}
    (h : Placed union scope known Expr.vars (Expr.Orderly union scope) a em)
    {before around : Set Variable}
    (hbefore : ∀ v ∈ before, v ∈ Group.vars (em.elements ++ filterOf em.value) → known v)
    (haround : ∀ v ∈ around, v ∈ Group.vars (em.elements ++ filterOf em.value) → known v) :
    Element.GroupOrderly union scope before around (em.elements ++ filterOf em.value) := by
  simp only [mem_vars_filtered] at hbefore haround
  refine Element.groupOrderly_append (h.elements _ _ (fun v hv hmem => hbefore v hv (.inl hmem)) ?_)
    (orderly_filterOf (h.value _ _ ?_ ?_))
  · rintro v (hv | hv) hmem
    · exact .inl (haround v hv (.inl hmem))
    · exact .inr (by rwa [Set.mem_ofPred_eq, vars_filterOf] at hv)
  · rintro v (hv | hv) hmem
    · exact .inl (hbefore v hv (.inr hmem))
    · exact .inr hv
  · rintro v (hv | hv) hmem
    · exact .inl (haround v hv (.inr hmem))
    · exact .inr hv

theorem neat_required {m : Emit Expr}
    (h : m.Neat union scope known Expr.vars (Expr.Orderly union scope)) :
    (m >>= require).Neat union scope known (fun _ => []) fun _ _ _ => True := by
  intro a em ha hem
  obtain ⟨first, second, hfirst, hsecond, rfl⟩ := bind_ok hem
  rw [require_apply, ← filterOf] at hsecond
  obtain rfl := Except.ok.inj hsecond
  have hplaced := h a first ha hfirst
  refine ⟨⟨hplaced.later, fun v hv => ?_, by simp⟩, fun before around hbefore haround =>
    orderly_filtered hplaced hbefore fun v hv hmem => (haround v hv hmem).resolve_right (by simp),
    fun _ _ _ _ => trivial⟩
  rcases mem_vars_filtered.1 hv with hv | hv
  · exact hplaced.written v hv
  · exact hplaced.valued v hv

theorem neat_enclosed {m : Emit Expr}
    (h : m.Neat union scope known Expr.vars (Expr.Orderly union scope))
    (hscope : ∀ a a' inner around, enclosed m a = .ok ⟨.exist inner, [], a'⟩ →
      (∀ v ∈ around, v ∈ Group.vars inner → known v) → scope around inner) :
    (enclosed m).Neat union scope known Expr.vars (Expr.Orderly union scope) := by
  intro a em ha hem
  obtain ⟨inner, hinner, helements, hallocator, hvalue⟩ := enclosed_ok hem
  have hplaced := h a inner ha hinner
  obtain ⟨value, elements, allocator⟩ := em
  subst helements hallocator
  rcases hvalue with ⟨hnil, rfl⟩ | ⟨-, rfl⟩
  · refine ⟨⟨hplaced.later, by simp [Group.vars, Element.groupVars], hplaced.valued⟩,
      fun _ _ _ _ => trivial, ?_⟩
    have hvalue := hplaced.value
    rwa [hnil] at hvalue
  · refine ⟨⟨hplaced.later, by simp [Group.vars, Element.groupVars], fun v hv => ?_⟩,
      fun _ _ _ _ => trivial, fun before around hbefore haround => ?_⟩
    · rcases mem_vars_filtered.1 hv with hv | hv
      · exact hplaced.written v hv
      · exact hplaced.valued v hv
    · have hknown : ∀ v, known v ∨ v ∈ Group.vars [] → known v := fun v hv =>
        hv.resolve_right (by simp [Group.vars, Element.groupVars])
      have haround' : ∀ v ∈ around, v ∈ Group.vars (inner.elements ++ filterOf inner.value) →
          known v := fun v hv hmem => hknown v (haround v hv hmem)
      exact ⟨hscope a _ _ around hem haround',
        orderly_filtered hplaced (fun v hv hmem => hknown v (hbefore v hv hmem)) haround'⟩

theorem neat_joined {m m' : Emit Expr} {join : Expr → Expr → Expr}
    (hvars : ∀ {l r v}, v ∈ (join l r).vars → v ∈ l.vars ∨ v ∈ r.vars)
    (hjoin : ∀ l r, join l r = .always ∨ (∀ v, v ∈ l.vars ∨ v ∈ r.vars → v ∈ (join l r).vars) ∧
      ∀ before around, l.Orderly union scope before (around ∪ {v | v ∈ r.vars}) →
        r.Orderly union scope before (around ∪ {v | v ∈ l.vars}) →
        (join l r).Orderly union scope before around)
    (h : (enclosed m).Neat union scope known Expr.vars (Expr.Orderly union scope))
    (h' : (enclosed m').Neat union scope known Expr.vars (Expr.Orderly union scope)) :
    Neat union scope known Expr.vars (Expr.Orderly union scope) (do
      let l ← enclosed m
      let l' ← enclosed m'
      return join l l') := by
  intro a em ha hem
  obtain ⟨first, rest, hfirst, hrest, rfl⟩ := bind_ok hem
  obtain ⟨second, last, hsecond, hlast, rfl⟩ := bind_ok hrest
  cases hlast
  obtain ⟨-, -, hnil, -⟩ := enclosed_ok hfirst
  obtain ⟨-, -, hnil', -⟩ := enclosed_ok hsecond
  have hl := h a first ha hfirst
  have hr := h' first.allocator second (fun v hv hp => ha v hv (hl.later v hp)) hsecond
  -- The two conditions have taken different variables, so they share known ones only.
  have hshared : ∀ v, v ∈ first.value.vars → v ∈ second.value.vars → known v := by
    intro v hv hv'
    rcases hl.valued v hv with hv | hv
    · exact hv
    · exact (hr.valued v hv').resolve_right fun hspent => hv.2 hspent.1
  refine ⟨⟨hl.later.trans hr.later, by simp [hnil, hnil', Group.vars, Element.groupVars],
    fun v hv => ?_⟩, fun _ _ _ _ => by simp [hnil, hnil', Element.GroupOrderly],
    fun before around hbefore haround => ?_⟩
  · rcases hvars hv with hv | hv
    · exact (hl.valued v hv).imp_right fun hv => hv.later hr.later
    · exact (hr.valued v hv).imp_right fun hv => hv.earlier hl.later
  · rcases hjoin first.value second.value with halways | ⟨hall, horderly⟩
    · rw [halways]
      trivial
    · have hknown : ∀ v, known v ∨ v ∈ Group.vars (first.elements ++ (second.elements ++ [])) →
          known v := fun v hv =>
        hv.resolve_right (by simp [hnil, hnil', Group.vars, Element.groupVars])
      refine horderly before around (hl.value _ _ ?_ ?_) (hr.value _ _ ?_ ?_)
      · exact fun v hv hmem => .inl (hknown v (hbefore v hv (hall v (.inl hmem))))
      · rintro v (hv | hv) hmem
        · exact .inl (hknown v (haround v hv (hall v (.inl hmem))))
        · exact .inl (hshared v hmem hv)
      · exact fun v hv hmem => .inl (hknown v (hbefore v hv (hall v (.inr hmem))))
      · rintro v (hv | hv) hmem
        · exact .inl (hknown v (haround v hv (hall v (.inr hmem))))
        · exact .inl (hshared v hv hmem)

theorem joins_both (l r : Expr) : Expr.both l r = .always ∨
    (∀ v, v ∈ l.vars ∨ v ∈ r.vars → v ∈ (Expr.both l r).vars) ∧
      ∀ before around, l.Orderly union scope before (around ∪ {v | v ∈ r.vars}) →
        r.Orderly union scope before (around ∪ {v | v ∈ l.vars}) →
        (Expr.both l r).Orderly union scope before around := by
  refine .inr ⟨fun v => ?_, fun before around => Expr.orderly_both⟩
  unfold Expr.both
  split <;> simp [Expr.vars]

theorem joins_oneOf (l r : Expr) : Expr.oneOf l r = .always ∨
    (∀ v, v ∈ l.vars ∨ v ∈ r.vars → v ∈ (Expr.oneOf l r).vars) ∧
      ∀ before around, l.Orderly union scope before (around ∪ {v | v ∈ r.vars}) →
        r.Orderly union scope before (around ∪ {v | v ∈ l.vars}) →
        (Expr.oneOf l r).Orderly union scope before around := by
  unfold Expr.oneOf
  split
  · exact .inl rfl
  · exact .inl rfl
  · exact .inr ⟨fun v => by simp [Expr.vars], fun before around => .intro⟩

theorem neat_asOperand {s : Selector} {m : Emit Variable}
    (h : m.Neat union scope known (fun v => [v]) fun _ _ _ => True) :
    (asOperand s m).Neat union scope known Expr.vars fun _ _ e => e.Plain union scope := by
  have hvar : (m >>= fun v => pure (.var v)).Neat union scope known Expr.vars
      fun _ _ e => e.Plain union scope :=
    h.bind fun v _ => neat_done _ (fun w hw => .inr hw) fun _ _ => Expr.plain_term _
  cases s with
  | constant n =>
    exact neat_done _ (by simp [Expr.vars, Term.vars]) fun _ _ => Expr.plain_term _
  | _ => exact hvar

theorem neat_compared (op : Comparison) {left right : Selector} {m m' : Emit Variable}
    (h : m.Neat union scope known (fun v => [v]) fun _ _ _ => True)
    (h' : m'.Neat union scope known (fun v => [v]) fun _ _ _ => True) :
    Neat union scope known Expr.vars (Expr.Orderly union scope) (do
      let l ← asOperand left m
      let l' ← asOperand right m'
      return .compare op l l') := by
  refine (neat_asOperand h).bind fun l hl => ((neat_asOperand h').mono fun v => .inl).bind
    fun l' hl' => neat_done _ (fun v hv => ?_) (Expr.plain_compare op hl hl')
  rw [Expr.vars, List.mem_append] at hv
  exact hv.imp .inr id

theorem neat_alongProperty (p : Iri) (context : Variable) :
    (alongProperty p context).Neat union scope (· = context) (fun v => [v])
      fun _ _ _ => True := by
  refine neat_fresh.bind fun output _ => (neat_writeTriple ?_).bind fun _ _ =>
    neat_done output (by simp) fun _ _ => trivial
  simp [TriplePattern.vars, Term.vars, Term.iri]

theorem neat_againstProperty (p : Iri) (context : Variable) :
    (againstProperty p context).Neat union scope (· = context) (fun v => [v])
      fun _ _ _ => True := by
  refine neat_fresh.bind fun output _ => (neat_writeTriple ?_).bind fun _ _ =>
    neat_done output (by simp) fun _ _ => trivial
  simp [TriplePattern.vars, Term.vars, Term.iri]

theorem neat_alongAny (context : Variable) :
    (alongAny context).Neat union scope (· = context) (fun v => [v]) fun _ _ _ => True := by
  refine neat_fresh.bind fun predicate _ => neat_fresh.bind fun output _ =>
    (neat_writeTriple ?_).bind fun _ _ => neat_done output (by simp) fun _ _ => trivial
  simp [TriplePattern.vars, Term.vars]

end Compile

end GraphPath
