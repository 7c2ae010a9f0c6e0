import GraphPath.Proofs.Growth
import GraphPath.Proofs.Rules
import GraphPath.Proofs.Seeding

/-!
# Variables that compiling takes

An allocator gives an endless sequence of variables, none of them twice and none of them the root.
What is compiled from a context speaks about the context and about variables that it took itself;
the ones that are still to come do not occur in it, so a seed that binds none of those can be
extended by one compiled part after the other.
-/

namespace GraphPath

namespace Allocator

/-- The variable that is given when as many others have been given before it. -/
def nth (a : Allocator) : Nat → Variable
  | 0 => a.fresh.1
  | n + 1 => a.fresh.2.nth n

/-- The variable is still to be given. -/
def Pending (a : Allocator) (v : Variable) : Prop := ∃ n, v = a.nth n

/-- The second allocator gives no variable that the first does not give. -/
def Precedes (a a' : Allocator) : Prop := ∀ v, a'.Pending v → a.Pending v

/-- The variable was given between the two allocators. -/
def Spent (a a' : Allocator) (v : Variable) : Prop := a.Pending v ∧ ¬ a'.Pending v

theorem numbered_injective (a : Allocator) {m n : Nat} (h : a.numbered m = a.numbered n) :
    m = n := by
  have htext : (toString m).toList = (toString n).toList := by
    have happend : a.stem ++ toString m = a.stem ++ toString n := congrArg Variable.name h
    rw [(String.append_right_inj a.stem).1 happend]
  have hdigits : Nat.toDigits 10 m = Nat.toDigits 10 n := by
    simpa only [Nat.toString_eq_repr, Nat.toList_repr] using htext
  simpa using congrArg (fun digits => Nat.ofDigitChars 10 digits 0) hdigits

theorem fresh_spec (a : Allocator) :
    ∃ n, a.next ≤ n ∧ a.fresh.1 = a.numbered n ∧ n < a.fresh.2.next ∧ a.fresh.1 ≠ a.root ∧
      a.fresh.2.stem = a.stem ∧ a.fresh.2.root = a.root := by
  unfold fresh
  split
  · next hroot =>
    refine ⟨a.next + 1, Nat.le_succ _, rfl, Nat.lt_succ_self _, fun h => ?_, rfl, rfl⟩
    have := a.numbered_injective (h.trans hroot.symm)
    omega
  · next hroot => exact ⟨a.next, Nat.le_refl _, rfl, Nat.lt_succ_self _, hroot, rfl, rfl⟩

theorem nth_spec (a : Allocator) (i : Nat) :
    ∃ n, a.next ≤ n ∧ a.nth i = a.numbered n ∧ a.nth i ≠ a.root := by
  induction i generalizing a with
  | zero =>
    obtain ⟨n, hn, heq, -, hroot, -⟩ := a.fresh_spec
    exact ⟨n, hn, heq, hroot⟩
  | succ i ih =>
    obtain ⟨n, hn, -, hlt, -, hstem, hsame⟩ := a.fresh_spec
    obtain ⟨m, hm, heq, hroot⟩ := ih a.fresh.2
    refine ⟨m, by omega, ?_, hsame ▸ hroot⟩
    rw [nth, heq, numbered, numbered, hstem]

theorem fresh_pending (a : Allocator) : a.Pending a.fresh.1 := ⟨0, rfl⟩

theorem root_not_pending (a : Allocator) : ¬ a.Pending a.root := by
  rintro ⟨i, hi⟩
  obtain ⟨n, -, -, hroot⟩ := a.nth_spec i
  exact hroot hi.symm

theorem fresh_not_pending (a : Allocator) : ¬ a.fresh.2.Pending a.fresh.1 := by
  rintro ⟨i, hi⟩
  obtain ⟨n, -, heq, hlt, -, hstem, -⟩ := a.fresh_spec
  obtain ⟨m, hm, heq', -⟩ := a.fresh.2.nth_spec i
  have hnumbered : a.numbered n = a.numbered m := by
    rw [← heq, hi, heq', numbered, numbered, hstem]
  have := a.numbered_injective hnumbered
  omega

theorem nth_injective (a : Allocator) {i j : Nat} (h : a.nth i = a.nth j) : i = j := by
  induction i generalizing a j with
  | zero =>
    cases j with
    | zero => rfl
    | succ j => exact absurd ⟨j, h⟩ a.fresh_not_pending
  | succ i ih =>
    cases j with
    | zero => exact absurd ⟨i, h.symm⟩ a.fresh_not_pending
    | succ j => rw [ih a.fresh.2 h]

theorem Precedes.refl (a : Allocator) : a.Precedes a := fun _ h => h

theorem Precedes.trans {a b c : Allocator} (hab : a.Precedes b) (hbc : b.Precedes c) :
    a.Precedes c := fun v h => hab v (hbc v h)

theorem precedes_fresh (a : Allocator) : a.Precedes a.fresh.2 := by
  rintro v ⟨i, rfl⟩
  exact ⟨i + 1, rfl⟩

theorem fresh_spent (a : Allocator) : a.Spent a.fresh.2 a.fresh.1 :=
  ⟨a.fresh_pending, a.fresh_not_pending⟩

theorem Spent.earlier {a a' b : Allocator} {v : Variable} (h : a'.Spent b v)
    (ha : a.Precedes a') : a.Spent b v := ⟨ha v h.1, h.2⟩

theorem Spent.later {a b b' : Allocator} {v : Variable} (h : a.Spent b v)
    (hb : b.Precedes b') : a.Spent b' v := ⟨h.1, fun hv => h.2 (hb v hv)⟩

end Allocator

/-- The row binds no variable that is still to be given. -/
def Row.Avoids (r : Row) (a : Allocator) : Prop := ∀ v, a.Pending v → r.value? v = none

theorem Row.Avoids.later {r : Row} {a a' : Allocator} (h : r.Avoids a) (ha : a.Precedes a') :
    r.Avoids a' := fun v hv => h v (ha v hv)

theorem Row.Avoids.not_pending {r : Row} {a : Allocator} {v : Variable} {n : Node}
    (h : r.Avoids a) (hv : r.value? v = some n) : ¬ a.Pending v := by
  intro hpending
  rw [h v hpending] at hv
  cases hv

theorem Row.avoids_empty (a : Allocator) : Row.Avoids .empty a := fun _ _ => by simp

theorem Row.avoids_bind_empty {a : Allocator} {v : Variable} (h : ¬ a.Pending v) (n : Node) :
    (Row.bind .empty v n).Avoids a := by
  intro w hw
  have hne : w ≠ v := fun heq => h (heq ▸ hw)
  simp [hne]

/-- What was compiled between two allocators speaks about known variables and those it took. Its
bindings have targets of its own, and it has no optional part. -/
structure Group.Tidy (known : Variable → Prop) (a a' : Allocator) (g : Group) : Prop where
  later : a.Precedes a'
  written : ∀ v ∈ g.vars, known v ∨ a.Spent a' v
  target : ∀ e v, .bind e v ∈ g → a.Pending v
  plain : ∀ inner, .optional inner ∉ g

namespace Group.Tidy

variable {known : Variable → Prop} {a a' : Allocator} {g : Group}

theorem vars (h : g.Tidy known a a') {v : Variable} (hv : v ∈ g.vars) :
    known v ∨ a.Pending v :=
  (h.written v hv).imp_right And.left

theorem mono {known' : Variable → Prop} (h : g.Tidy known a a')
    (hknown : ∀ v, known v → known' v) : g.Tidy known' a a' :=
  { h with written := fun v hv => (h.written v hv).imp_left (hknown v) }

theorem nil (known : Variable → Prop) (h : a.Precedes a') : Group.Tidy known a a' [] where
  later := h
  written := by simp [Group.vars, Element.groupVars]
  target := by simp
  plain := by simp

theorem append {middle : Variable → Prop} {a'' : Allocator} {g' : Group}
    (h : g.Tidy known a a') (h' : g'.Tidy middle a' a'')
    (hmiddle : ∀ v, middle v → known v ∨ a.Spent a' v) :
    Group.Tidy known a a'' (g ++ g') where
  later := h.later.trans h'.later
  written v hv := by
    have hspent : known v ∨ a.Spent a' v → known v ∨ a.Spent a'' v :=
      Or.imp_right fun hv => hv.later h'.later
    rw [Group.vars, Element.groupVars_append, List.mem_append] at hv
    rcases hv with hv | hv
    · exact hspent (h.written v hv)
    · rcases h'.written v hv with hv | hv
      · exact hspent (hmiddle v hv)
      · exact .inr (hv.earlier h.later)
  target e v he := by
    rcases List.mem_append.1 he with he | he
    · exact h.target e v he
    · exact h.later v (h'.target e v he)
  plain inner hin := by
    rcases List.mem_append.1 hin with hin | hin
    · exact h.plain inner hin
    · exact h'.plain inner hin

theorem joinable {context : Variable} (h : g.Tidy (· = context) a a') {seed : Row}
    (hseed : seed.Avoids a) : g.Joinable context seed where
  only v hv hne := hseed v ((h.vars hv).resolve_left hne)
  target e v he := hseed v (h.target e v he)
  plain := h.plain

theorem avoids {context : Variable} {D : List Quad} {r x : Row}
    (h : g.Tidy (· = context) a a') (hcontext : ¬ a.Pending context) (hr : r.Avoids a)
    (hx : x ∈ Element.steps D g r) : x.Avoids a' := by
  intro v hv
  have hout : v ∉ g.vars := by
    intro hmem
    rcases h.written v hmem with rfl | hspent
    · exact hcontext (h.later v hv)
    · exact hspent.2 hv
  rw [(Element.steps_grows hx).outside v hout]
  exact hr v (h.later v hv)

/-- Two parts compiled one after the other: the rows of the second from each row of the first, if
the first gives a value to what the second knows of it. -/
theorem found_append {context : Variable} {c : Node} {known' : Variable → Prop} {a'' : Allocator}
    {g' : Group} {D : List Quad} {r : Row} (h : g.Tidy (· = context) a a')
    (h' : g'.Tidy known' a' a'') (hc : r.value? context = some c)
    (hknown : ∀ x ∈ Element.steps D g r, ∀ v, known' v → (x.value? v).isSome) :
    Group.found D (g ++ g') r = (Group.found D g r).flatMap (Group.found D g') := by
  refine Group.found_append_of_bound fun x hx v hv hv' => ?_
  rcases h.written v hv with rfl | hspent
  · exact Option.isSome_of_eq_some ((Element.steps_grows hx).below v c hc)
  · exact hknown x hx v ((h'.vars hv').resolve_right hspent.2)

end Group.Tidy

namespace Emit

variable {α β : Type} {known : Variable → Prop} {vars : α → List Variable}

/-- What was written, and the value, speak about known variables and those that were taken. -/
structure Within (known : Variable → Prop) (vars : α → List Variable) (a : Allocator)
    (em : Emission α) : Prop where
  later : a.Precedes em.allocator
  written : ∀ v ∈ em.elements.vars, known v ∨ a.Spent em.allocator v
  valued : ∀ v ∈ vars em.value, known v ∨ a.Spent em.allocator v

/-- The step takes from the allocator what it does not know. -/
def Confined (known : Variable → Prop) (vars : α → List Variable) (m : Emit α) : Prop :=
  ∀ a em, m a = .ok em → Within known vars a em

/-- The step is tidy, and its value has no variables but known ones and those that the step took. -/
def Stays (known : Variable → Prop) (vars : α → List Variable) (m : Emit α) : Prop :=
  ∀ a em, m a = .ok em → em.elements.Tidy known a em.allocator ∧
    ∀ v ∈ vars em.value, known v ∨ a.Spent em.allocator v

theorem Stays.confined {m : Emit α} (h : m.Stays known vars) : m.Confined known vars := by
  intro a em hem
  obtain ⟨htidy, hvalued⟩ := h a em hem
  exact ⟨htidy.later, htidy.written, hvalued⟩

theorem Stays.mono {known' : Variable → Prop} {m : Emit α} (h : m.Stays known vars)
    (hknown : ∀ v, known v → known' v) : m.Stays known' vars := fun a em hem =>
  ⟨(h a em hem).1.mono hknown, fun v hv => ((h a em hem).2 v hv).imp_left (hknown v)⟩

theorem stays_done (x : α) (hx : ∀ v ∈ vars x, known v) : (done x).Stays known vars := by
  rintro a em ⟨⟩
  exact ⟨.nil known (.refl a), fun v hv => .inl (hx v hv)⟩

theorem Stays.bind {vars' : β → List Variable} {m : Emit α} {f : α → Emit β}
    (hm : m.Stays known vars)
    (hf : ∀ x, (f x).Stays (fun v => known v ∨ v ∈ vars x) vars') :
    (m >>= f).Stays known vars' := by
  intro a em hem
  obtain ⟨first, second, hfirst, hsecond, rfl⟩ := bind_ok hem
  obtain ⟨htidy, hvalue⟩ := hm a first hfirst
  obtain ⟨htidy', hvalue'⟩ := hf first.value first.allocator second hsecond
  have hmiddle : ∀ v, known v ∨ v ∈ vars first.value → known v ∨ a.Spent first.allocator v :=
    fun v hv => hv.elim .inl (hvalue v)
  refine ⟨htidy.append htidy' hmiddle, fun v hv => ?_⟩
  rcases hvalue' v hv with hv | hv
  · exact (hmiddle v hv).imp_right fun hv => hv.later htidy'.later
  · exact .inr (hv.earlier htidy.later)

theorem stays_fresh : fresh.Stays known fun v => [v] := by
  intro a em hem
  obtain rfl := fresh_ok hem
  refine ⟨.nil known a.precedes_fresh, fun v hv => ?_⟩
  rw [List.mem_singleton.1 hv]
  exact .inr a.fresh_spent

theorem stays_write {e : Element} (hvars : ∀ v ∈ e.vars, known v)
    (hbind : ∀ x v, e ≠ .bind x v) (hplain : ∀ inner, e ≠ .optional inner) :
    (write e).Stays known fun _ => [] := by
  rintro a em ⟨⟩
  refine ⟨⟨.refl a, fun v hv => ?_, fun x v hmem => ?_, fun inner hmem => ?_⟩, by simp⟩
  · refine .inl (hvars v ?_)
    simpa [Group.vars, Element.groupVars] using hv
  · exact absurd (List.mem_singleton.1 hmem).symm (hbind x v)
  · exact absurd (List.mem_singleton.1 hmem).symm (hplain inner)

private theorem stays_ofExcept_bind {x : Except CompileError β} {f : β → Emit α}
    (h : ∀ y, x = .ok y → (f y).Stays known vars) : (ofExcept x >>= f).Stays known vars := by
  intro a em hem
  obtain ⟨y, hx, hy⟩ := ofExcept_bind_ok hem
  exact h y hx a em hy

theorem stays_iterate {f : Variable → Emit Variable}
    (h : ∀ c, (f c).Stays (· = c) fun v => [v]) (n : Nat) (c : Variable) :
    (iterate f n c).Stays (· = c) fun v => [v] := by
  induction n generalizing c with
  | zero => exact stays_done c (by simp)
  | succ n ih =>
    refine (h c).bind fun next => (ih next).mono ?_
    rintro v rfl
    simp

theorem Runs.forall₂_of_confined {ms : List (Emit α)} {a a' : Allocator} {ems : List (Emission α)}
    (hruns : Runs ms a ems a') (h : ∀ m ∈ ms, m.Confined known vars) :
    a.Precedes a' ∧ List.Forall₂ (fun m em => ∃ b, m b = .ok em ∧ a.Precedes b ∧
      em.allocator.Precedes a') ms ems := by
  induction hruns with
  | nil a => exact ⟨.refl a, .nil⟩
  | @cons m ms a a' em ems head tail ih =>
    obtain ⟨hlater, hrest⟩ := ih fun m hm => h m (List.mem_cons_of_mem _ hm)
    have hfirst := (h m List.mem_cons_self a em head).later
    refine ⟨hfirst.trans hlater, .cons ⟨a, head, .refl a, hlater⟩ (hrest.imp ?_)⟩
    rintro m em ⟨b, hb, hab, hba⟩
    exact ⟨b, hb, hfirst.trans hab, hba⟩

theorem Runs.forall₂ {ms : List (Emit α)} {a a' : Allocator} {ems : List (Emission α)}
    (hruns : Runs ms a ems a') (h : ∀ m ∈ ms, m.Stays known vars) :
    a.Precedes a' ∧ List.Forall₂ (fun m em => ∃ b, m b = .ok em ∧ a.Precedes b ∧
      em.allocator.Precedes a') ms ems :=
  hruns.forall₂_of_confined fun m hm => (h m hm).confined

end Emit

namespace Compile

open Emit

-- Allocators that are several variables apart are told apart by name, not by computing them.
attribute [local irreducible] Allocator.fresh

theorem precedes_closing (context output value : Variable) (a : Allocator) :
    a.Precedes (closing context output value a).2 := by
  unfold closing
  split
  · exact ((a.precedes_fresh.trans (Allocator.precedes_fresh _)).trans
      (Allocator.precedes_fresh _)).trans (Allocator.precedes_fresh _)
  · exact .refl a

theorem mem_anyResource_vars {context : Variable} {a : Allocator} {v : Variable}
    (hv : v ∈ (anyResource context a).vars) :
    v = context ∨ a.Spent a.fresh.2.fresh.2.fresh.2.fresh.2 v := by
  have h₁ := a.precedes_fresh
  have h₂ := a.fresh.2.precedes_fresh
  have h₃ := a.fresh.2.fresh.2.precedes_fresh
  have h₄ := a.fresh.2.fresh.2.fresh.2.precedes_fresh
  simp only [anyResource, Element.vars, Element.branchVars, Element.groupVars, Element.ofTriple,
    TriplePattern.vars, Term.vars, List.append_nil, List.mem_append, List.mem_singleton] at hv
  rcases hv with ((rfl | rfl) | rfl) | ((rfl | rfl) | rfl)
  · exact .inl rfl
  · exact .inr (a.fresh_spent.later ((h₂.trans h₃).trans h₄))
  · exact .inr ((a.fresh.2.fresh_spent.later (h₃.trans h₄)).earlier h₁)
  · exact .inr ((a.fresh.2.fresh.2.fresh_spent.later h₄).earlier (h₁.trans h₂))
  · exact .inr (a.fresh.2.fresh.2.fresh.2.fresh_spent.earlier ((h₁.trans h₂).trans h₃))
  · exact .inl rfl

theorem mem_closing_vars {context output value : Variable} {a : Allocator} {v : Variable}
    (hv : v ∈ Group.vars (closing context output value a).1) :
    (v = context ∨ v = output ∨ v = value) ∨ a.Spent (closing context output value a).2 v := by
  have hbind : v ∈ Element.vars (.bind (.var value) output) → v = output ∨ v = value := by
    simp [Element.vars, Expr.var, Expr.vars, Term.vars, or_comm]
  unfold closing at hv ⊢
  split at hv
  · next hvalue =>
    rw [if_pos hvalue]
    simp only [Group.vars, Element.groupVars, List.append_nil, List.mem_append] at hv
    rcases hv with hv | hv
    · exact (mem_anyResource_vars hv).imp_left .inl
    · exact .inl (.inr (hbind hv))
  · simp only [Group.vars, Element.groupVars, List.append_nil] at hv
    exact .inl (.inr (hbind hv))

theorem closings_forall₂ (context output : Variable) (ems : List (Emission Variable))
    (a : Allocator) :
    a.Precedes (closings context output ems a).2 ∧
      List.Forall₂ (fun em g => ∃ b, a.Precedes b ∧
        (closing context output em.value b).2.Precedes (closings context output ems a).2 ∧
        g = em.elements ++ (closing context output em.value b).1)
        ems (closings context output ems a).1 := by
  induction ems generalizing a with
  | nil => exact ⟨.refl a, .nil⟩
  | cons em rest ih =>
    obtain ⟨hlater, hrest⟩ := ih (closing context output em.value a).2
    have hfirst := precedes_closing context output em.value a
    refine ⟨hfirst.trans hlater, .cons ⟨a, .refl a, hlater, rfl⟩ (hrest.imp ?_)⟩
    rintro em g ⟨b, hab, hba, hg⟩
    exact ⟨b, hfirst.trans hab, hba, hg⟩

theorem mem_branchVars_iff {branches : List Group} {v : Variable} :
    v ∈ Element.branchVars branches ↔ ∃ g ∈ branches, v ∈ g.vars := by
  induction branches with
  | nil => simp [Element.branchVars]
  | cons g rest ih => simp [Element.branchVars, ih, Group.vars]

theorem confined_alternatives {context : Variable} {branches : List (Emit Variable)}
    (h : ∀ m ∈ branches, m.Confined (· = context) fun v => [v]) :
    (alternatives context branches).Confined (· = context) fun v => [v] := by
  intro a em hem
  obtain ⟨ems, a', hruns, rfl⟩ := alternatives_ok hem
  obtain ⟨hruns', hems⟩ := hruns.forall₂_of_confined h
  obtain ⟨hclosings, hgroups⟩ := closings_forall₂ context a'.fresh.1 ems a'.fresh.2
  have hoa := hruns'.trans a'.precedes_fresh
  have houtput : a.Spent (closings context a'.fresh.1 ems a'.fresh.2).2 a'.fresh.1 :=
    (a'.fresh_spent.later hclosings).earlier hruns'
  refine ⟨hoa.trans hclosings, fun v hv => ?_, fun v hv => ?_⟩
  · have hv' : v ∈ Element.branchVars (closings context a'.fresh.1 ems a'.fresh.2).1 := by
      simpa [Group.vars, Element.groupVars, Element.vars] using hv
    obtain ⟨g, hg, hvg⟩ := mem_branchVars_iff.1 hv'
    obtain ⟨em, hem', b, hb, hclosing, rfl⟩ := exists_of_forall₂_right hgroups hg
    obtain ⟨m, hm, b', hok, hab, hlast⟩ := exists_of_forall₂_right hems hem'
    have hwithin := h m hm b' em hok
    have hspent : ∀ w, w = context ∨ b'.Spent em.allocator w → w = context ∨
        a.Spent (closings context a'.fresh.1 ems a'.fresh.2).2 w := fun w hw =>
      hw.imp_right fun hw => (hw.later (hlast.trans (a'.precedes_fresh.trans hclosings))).earlier
        hab
    rw [Group.vars, Element.groupVars_append, List.mem_append] at hvg
    rcases hvg with hvg | hvg
    · exact hspent v (hwithin.written v hvg)
    · rcases mem_closing_vars hvg with (rfl | rfl | rfl) | hvg
      · exact .inl rfl
      · exact .inr houtput
      · exact hspent _ (hwithin.valued _ (by simp))
      · exact .inr ((hvg.later hclosing).earlier (hoa.trans hb))
  · rw [List.mem_singleton.1 hv]
    exact .inr houtput

theorem stays_alternatives {context : Variable} {branches : List (Emit Variable)}
    (h : ∀ m ∈ branches, m.Stays (· = context) fun v => [v]) :
    (alternatives context branches).Stays (· = context) fun v => [v] := by
  intro a em hem
  have hwithin := confined_alternatives (fun m hm => (h m hm).confined) a em hem
  obtain ⟨ems, a', -, rfl⟩ := alternatives_ok hem
  exact ⟨⟨hwithin.later, hwithin.written, by simp, by simp⟩, hwithin.valued⟩

theorem stays_bindFresh {known : Variable → Prop} {e : Expr} (h : ∀ v ∈ e.vars, known v) :
    (bindFresh e).Stays known fun v => [v] := by
  intro a em hem
  rw [bindFresh_apply] at hem
  obtain rfl := Except.ok.inj hem
  refine ⟨⟨a.precedes_fresh, fun v hv => ?_, fun x v hmem => ?_, by simp⟩, fun v hv => ?_⟩
  · simp only [Group.vars, Element.groupVars, Element.vars, List.append_nil, List.mem_append,
      List.mem_singleton] at hv
    rcases hv with hv | rfl
    · exact .inl (h v hv)
    · exact .inr a.fresh_spent
  · rw [List.mem_singleton, Element.bind.injEq] at hmem
    rw [hmem.2]
    exact a.fresh_pending
  · rw [List.mem_singleton.1 hv]
    exact .inr a.fresh_spent

theorem stays_writeTriple {known : Variable → Prop} {s p o : Term}
    (h : ∀ v ∈ TriplePattern.vars ⟨s, p, o⟩, known v) :
    (writeTriple s p o).Stays known fun _ => [] :=
  stays_write h nofun nofun

theorem stays_require {known : Variable → Prop} {e : Expr} (h : ∀ v ∈ e.vars, known v) :
    (require e).Stays known fun _ => [] := by
  unfold require
  split
  · exact stays_done () (by simp)
  · exact stays_write h nofun nofun

theorem stays_requireSame {known : Variable → Prop} {left right : Variable} (hleft : known left)
    (hright : known right) : (requireSame left right).Stays known fun _ => [] := by
  unfold requireSame
  split
  · exact stays_done () (by simp)
  · refine stays_write (fun v hv => ?_) nofun nofun
    simp only [Element.vars, Expr.equals, Expr.var, Expr.vars, Term.vars, List.mem_append,
      List.mem_singleton] at hv
    rcases hv with rfl | rfl
    · exact hleft
    · exact hright

theorem vars_filterOf (e : Expr) : Group.vars (filterOf e) = e.vars := by
  cases e <;> simp [filterOf, Expr.isAlways, Group.vars, Element.groupVars, Element.vars, Expr.vars]

theorem mem_vars_filtered {g : Group} {e : Expr} {v : Variable} :
    v ∈ Group.vars (g ++ filterOf e) ↔ v ∈ g.vars ∨ v ∈ e.vars := by
  rw [Group.vars, Element.groupVars_append, List.mem_append, ← Group.vars, ← Group.vars,
    vars_filterOf]

theorem confined_enclosed {known : Variable → Prop} {m : Emit Expr}
    (h : m.Confined known Expr.vars) : (enclosed m).Confined known Expr.vars := by
  intro a em hem
  obtain ⟨inner, hinner, helements, hallocator, hvalue⟩ := enclosed_ok hem
  have hwithin := h a inner hinner
  refine ⟨hallocator ▸ hwithin.later, by simp [helements, Group.vars, Element.groupVars],
    fun v hv => ?_⟩
  rw [hallocator]
  rcases hvalue with ⟨-, hvalue⟩ | ⟨-, hvalue⟩ <;> rw [hvalue] at hv
  · exact hwithin.valued v hv
  · rcases mem_vars_filtered.1 hv with hv | hv
    · exact hwithin.written v hv
    · exact hwithin.valued v hv

theorem stays_enclosed {known : Variable → Prop} {m : Emit Expr}
    (h : m.Stays known Expr.vars) : (enclosed m).Stays known Expr.vars := by
  intro a em hem
  have hwithin := confined_enclosed h.confined a em hem
  obtain ⟨inner, -, helements, -⟩ := enclosed_ok hem
  rw [helements]
  exact ⟨.nil known hwithin.later, hwithin.valued⟩

private theorem stays_asOperand {known : Variable → Prop} {s : Selector} {m : Emit Variable}
    (h : m.Stays known fun v => [v]) : (asOperand s m).Stays known Expr.vars := by
  have hvar : (m >>= fun v => pure (.var v)).Stays known Expr.vars :=
    h.bind fun v => stays_done _ fun w hw => .inr hw
  cases s with
  | constant n => exact stays_done _ (by simp [Expr.vars, Term.vars])
  | _ => exact hvar

private theorem stays_unrolled {step : Variable → Emit Variable}
    (h : ∀ c, (step c).Stays (· = c) fun v => [v]) (min bound : Nat) (context : Variable) :
    (unrolled step min bound context).Stays (· = context) fun v => [v] := by
  unfold unrolled
  split
  · exact stays_iterate h min context
  · refine stays_alternatives fun m hm => ?_
    obtain ⟨i, -, rfl⟩ := List.mem_map.1 hm
    exact stays_iterate h (min + i) context

theorem stays_alongProperty (p : Iri) (context : Variable) :
    (alongProperty p context).Stays (· = context) fun v => [v] := by
  refine stays_fresh.bind fun output => .bind (stays_writeTriple ?_) fun _ =>
    stays_done output (by simp)
  simp [TriplePattern.vars, Term.vars, Term.iri]

theorem stays_againstProperty (p : Iri) (context : Variable) :
    (againstProperty p context).Stays (· = context) fun v => [v] := by
  refine stays_fresh.bind fun output => .bind (stays_writeTriple ?_) fun _ =>
    stays_done output (by simp)
  simp [TriplePattern.vars, Term.vars, Term.iri]

theorem stays_alongAny (context : Variable) :
    (alongAny context).Stays (· = context) fun v => [v] := by
  refine stays_fresh.bind fun predicate => stays_fresh.bind fun output =>
    .bind (stays_writeTriple ?_) fun _ => stays_done output (by simp)
  simp [TriplePattern.vars, Term.vars]

theorem mem_vars_both {l r : Expr} {v : Variable} (h : v ∈ (Expr.both l r).vars) :
    v ∈ l.vars ∨ v ∈ r.vars := by
  unfold Expr.both at h
  split at h
  · exact .inr h
  · exact .inl h
  · rwa [Expr.vars, List.mem_append] at h

theorem mem_vars_oneOf {l r : Expr} {v : Variable} (h : v ∈ (Expr.oneOf l r).vars) :
    v ∈ l.vars ∨ v ∈ r.vars := by
  unfold Expr.oneOf at h
  split at h
  · cases h
  · cases h
  · rwa [Expr.vars, List.mem_append] at h

private theorem stays_compared {known : Variable → Prop} (op : Comparison) {left right : Selector}
    {m m' : Emit Variable} (h : m.Stays known fun v => [v]) (h' : m'.Stays known fun v => [v]) :
    Stays known Expr.vars (do
      let l ← asOperand left m
      let l' ← asOperand right m'
      return .compare op l l') := by
  refine (stays_asOperand h).bind fun l => .bind ((stays_asOperand h').mono fun v => .inl)
    fun l' => stays_done _ fun v hv => ?_
  rw [Expr.vars, List.mem_append] at hv
  exact hv.imp .inr id

mutual

/-- What a selector compiles to speaks about its context and about variables of its own. -/
theorem stays_selector (limits : RecursionLimits) (s : Selector) (context : Variable) :
    (selector .builtin limits s context).Stays (· = context) fun v => [v] := by
  cases s with
  | property p =>
    rw [selector, governed_selectorRule]
    exact stays_alongProperty p context
  | reverse p =>
    rw [selector, governed_selectorRule]
    exact stays_againstProperty p context
  | path left right =>
    rw [selector, governed_selectorRule]
    refine (stays_selector limits left context).bind fun middle =>
      (stays_selector limits right middle).mono ?_
    rintro v rfl
    simp
  | union left right =>
    rw [selector, governed_selectorRule]
    refine stays_alternatives fun m hm => ?_
    rcases List.mem_pair.1 hm with rfl | rfl
    · exact stays_selector limits left context
    · exact stays_selector limits right context
  | intersection left right =>
    rw [selector, governed_selectorRule]
    exact (stays_selector limits left context).bind fun l => .bind
      ((stays_selector limits right context).mono fun v => .inl) fun l' => .bind
      (stays_requireSame (.inl (.inr (by simp))) (.inr (by simp))) fun _ =>
      stays_done l (by simp)
  | recursive inner min max =>
    rw [selector, governed_selectorRule]
    exact stays_ofExcept_bind fun depth _ =>
      stays_unrolled (fun c => stays_selector limits inner c) min depth context
  | grouping inner =>
    rw [selector, governed_selectorRule]
    exact stays_selector limits inner context
  | testing delegate t =>
    rw [selector, governed_selectorRule]
    refine (stays_selector limits delegate context).bind fun value => .bind
      ((stays_test limits t value).mono ?_) fun e => .bind
      (stays_require fun v hv => .inr hv) fun _ => stays_done context (by simp)
    rintro v rfl
    simp
  | function name args =>
    rw [selector, governed_selectorRule]
    refine stays_ofExcept_bind fun f hf => (stays_operands limits args context).bind fun values =>
      stays_ofExcept_bind fun e he => stays_bindFresh fun v hv => .inr ?_
    obtain ⟨b, rfl⟩ := Registry.exists_call hf he
    rwa [Expr.vars] at hv
  | self =>
    rw [selector, governed_selectorRule]
    exact stays_done context (by simp)
  | wildcard =>
    rw [selector, governed_selectorRule]
    exact stays_alongAny context
  | constant n =>
    rw [selector, governed_selectorRule]
    exact stays_bindFresh (by simp [Expr.vars, Term.vars])

private theorem stays_operands (limits : RecursionLimits) (args : List Selector)
    (context : Variable) :
    (operands .builtin limits args context).Stays (· = context) Expr.listVars := by
  cases args with
  | nil =>
    rw [operands]
    exact stays_done [] (by simp [Expr.listVars])
  | cons s rest =>
    rw [operands]
    refine (stays_asOperand (stays_selector limits s context)).bind fun e => .bind
      ((stays_operands limits rest context).mono fun v => .inl) fun more => stays_done _ ?_
    intro v hv
    rcases List.mem_append.1 hv with hv | hv
    · exact .inl (.inr hv)
    · exact .inr hv

theorem stays_test (limits : RecursionLimits) (t : Test) (context : Variable) :
    (test .builtin limits t context).Stays (· = context) Expr.vars := by
  cases t with
  | isA type =>
    by_cases htype : ∃ i, type = .constant (.iri i)
    · obtain ⟨i, rfl⟩ := htype
      rw [test, governed_testRule]
      refine .bind (stays_writeTriple ?_) fun _ => stays_done _ (by simp [Expr.vars])
      simp [TriplePattern.vars, Term.vars, Term.iri]
    · rw [test, governed_testRule]
      · refine stays_fresh.bind fun found => .bind (stays_writeTriple ?_) fun _ => .bind
          ((stays_asOperand (stays_selector limits type context)).mono fun v hv =>
            .inl (.inl hv)) fun expected => stays_done _ fun v hv => ?_
        · simp [TriplePattern.vars, Term.vars, Term.iri]
        · rcases List.mem_append.1 hv with hv | hv
          · exact .inl (.inl (.inr hv))
          · exact .inr hv
      · exact fun i hi => htype ⟨i, hi⟩
  | and left right =>
    rw [test, governed_testRule]
    refine (stays_enclosed (stays_test limits left context)).bind fun l => .bind
      ((stays_enclosed (stays_test limits right context)).mono fun v => .inl) fun l' =>
      stays_done _ fun v hv => ?_
    exact (mem_vars_both hv).imp .inr id
  | or left right =>
    rw [test, governed_testRule]
    refine (stays_enclosed (stays_test limits left context)).bind fun l => .bind
      ((stays_enclosed (stays_test limits right context)).mono fun v => .inl) fun l' =>
      stays_done _ fun v hv => ?_
    exact (mem_vars_oneOf hv).imp .inr id
  | not inner =>
    rw [test, governed_testRule]
    exact (stays_enclosed (stays_test limits inner context)).bind fun e =>
      stays_done _ fun v hv => .inr (by rwa [Expr.vars] at hv)
  | comparison op left right =>
    rw [test, governed_testRule]
    exact stays_compared op (stays_selector limits left context)
      (stays_selector limits right context)
  | pathEquality left right =>
    rw [test, governed_testRule]
    exact stays_compared .eq (stays_selector limits left context)
      (stays_selector limits right context)
  | pathExists path =>
    rw [test, governed_testRule]
    exact (stays_selector limits path context).bind fun _ => stays_done _ (by simp [Expr.vars])
  | language tag =>
    rw [test, governed_testRule]
    refine stays_done _ ?_
    simp [languageCondition, Expr.vars, Expr.listVars, Expr.var, Expr.literal, Term.vars,
      Term.literal]
  | datatype type =>
    rw [test, governed_testRule]
    refine stays_done _ ?_
    simp [datatypeCondition, Expr.equals, Expr.vars, Expr.listVars, Expr.var, Term.vars, Term.iri]

end

end Compile

end GraphPath
