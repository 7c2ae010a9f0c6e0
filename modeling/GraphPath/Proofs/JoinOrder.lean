import GraphPath.Proofs.Alternatives
import Mathlib.Data.List.Perm.Basic

/-!
# The order of conjunction

A triple pattern takes a row to the rows it is joined with by unifying one term after the other, a
nested group or a union to those of a separate join. Both come to the same: the element is matched
on its own, and what it matches meets the row. Meets commute, so two such elements can change places
without a change but in the order of the rows, and filters wait for the complete rows anyway.
-/

namespace GraphPath

/-- The elements that join what they match on their own: all but optional groups and bindings, which
look at the row they extend. -/
def Element.isJoined : Element → Bool
  | .triple _ => true
  | .group _ => true
  | .union _ => true
  | .optional _ => false
  | .filter _ => true
  | .bind .. => false

namespace Row

private theorem meet?_comm (l r : Row) : l.meet? r = r.meet? l := by
  cases hm : r.meet? l with
  | none =>
    cases hm' : l.meet? r with
    | none => rfl
    | some m =>
      obtain ⟨hl, hr, -⟩ := meet?_spec hm'
      obtain ⟨m', hm', -⟩ := exists_meet? hr hl
      rw [hm] at hm'
      cases hm'
  | some m =>
    obtain ⟨hr, hl, hvalue⟩ := meet?_spec hm
    apply meet?_eq_some_of hl hr
    intro v
    cases hlv : l.value? v with
    | none => simp [hvalue, hlv]
    | some n => exact hl v n hlv

private theorem bind_meet? (r x y : Row) :
    (r.meet? x).bind (·.meet? y) = (x.meet? y).bind r.meet? := by
  cases hz : r.meet? x with
  | some z => exact meet?_assoc hz y
  | none =>
    cases hw : x.meet? y with
    | none => rfl
    | some w => exact (meet?_eq_none_of_below (meet?_spec hw).1 hz).symm

private theorem meet?_right_comm (r x y : Row) :
    (r.meet? x).bind (·.meet? y) = (r.meet? y).bind (·.meet? x) := by
  rw [bind_meet?, bind_meet?, meet?_comm x y]

end Row

namespace TriplePattern

/-- A statement extends a row exactly if what it gives the variables of the pattern on its own
agrees with the row. -/
theorem unify_eq_meet (t : TriplePattern) (q : Quad) (r : Row) :
    t.unify r q = (t.unify .empty q).bind r.meet? := by
  have hseed : (r.meet? .empty).bind (t.unify · q) = (t.unify .empty q).bind r.meet? :=
    t.meet?_bind_unify q r .empty
  rwa [Row.meet?_empty, Option.bind_some] at hseed

/-- Matching a pattern from given rows is joining these rows with what the pattern matches from
nothing, also where a variable stands in several places or has a value already. -/
theorem extend_eq_join (t : TriplePattern) (quads : List Quad) (rows : List Row) :
    t.extend quads rows = Row.join rows (t.extend quads [.empty]) := by
  have hempty : t.extend quads [.empty] = quads.filterMap (t.unify .empty) := by
    simp [extend]
  rw [hempty, Row.join_eq, extend]
  apply List.flatMap_congr
  intro r _
  rw [List.filterMap_filterMap]
  apply List.filterMap_congr
  intro q _
  exact t.unify_eq_meet q r

end TriplePattern

private theorem flatMap_filterMap_swap {α β γ : Type} (f : α → β → Option γ) (xs : List α)
    (ys : List β) :
    (xs.flatMap fun x => ys.filterMap (f x)).Perm (ys.flatMap fun y => xs.filterMap (f · y)) := by
  induction xs with
  | nil => simp
  | cons x xs ih =>
    have hhead : ys.filterMap (f x) = ys.flatMap fun y => (f x y).toList :=
      List.filterMap_eq_flatMap_toList (f x) ys
    have hcons : ∀ y, (x :: xs).filterMap (f · y) = (f x y).toList ++ xs.filterMap (f · y) := by
      intro y
      cases hxy : f x y <;> simp [hxy]
    simp only [List.flatMap_cons, hhead, hcons]
    exact (ih.append_left _).trans (List.flatMap_append_perm ys _ _)

namespace Element

variable {D : List Quad} {e e' : Element}

/-- A row is joined with what the element matches from nothing. -/
theorem step_eq_meet (he : e.isJoined = true) (r : Row) :
    step D e r = (step D e .empty).filterMap r.meet? := by
  have hstep : (r.meet? .empty).toList.flatMap (step D e) =
      (step D e .empty).filterMap r.meet? := by
    apply meet?_flatMap_step
    · rintro inner rfl
      cases he
    · rintro ex target rfl
      cases he
  simpa using hstep

private theorem step_swap (he : e.isJoined = true) (he' : e'.isJoined = true) (r : Row) :
    ((step D e r).flatMap (step D e')).Perm ((step D e' r).flatMap (step D e)) := by
  have hboth : ∀ {e₁ e₂ : Element}, e₁.isJoined = true → e₂.isJoined = true →
      (step D e₁ r).flatMap (step D e₂) = (step D e₁ .empty).flatMap fun x =>
        (step D e₂ .empty).filterMap fun y => (r.meet? x).bind (·.meet? y) := by
    intro e₁ e₂ h₁ h₂
    rw [step_eq_meet h₁ r, List.filterMap_eq_flatMap_toList, List.flatMap_assoc]
    apply List.flatMap_congr
    intro x _
    cases r.meet? x with
    | none => simp
    | some z => simpa using step_eq_meet h₂ z
  rw [hboth he he', hboth he' he]
  refine (flatMap_filterMap_swap _ _ _).trans (.of_eq ?_)
  apply List.flatMap_congr
  intro y _
  apply List.filterMap_congr
  intro x _
  exact Row.meet?_right_comm r x y

private theorem steps_perm {g g' : Group} (hperm : g.Perm g') (hg : ∀ e ∈ g, e.isJoined = true)
    (r : Row) : (steps D g r).Perm (steps D g' r) := by
  -- on the permutation: elements that change places are next to each other
  induction hperm generalizing r with
  | nil => exact .refl _
  | cons e _ ih =>
    rw [steps, steps]
    apply List.Perm.flatMap_left
    intro x _
    exact ih (fun e' he' => hg e' (List.mem_cons_of_mem _ he')) x
  | swap e e' rest =>
    have hswap := step_swap (D := D) (hg e' (by simp)) (hg e (by simp)) r
    have htail := hswap.flatMap fun x _ => List.Perm.refl (steps D rest x)
    simpa only [steps, List.flatMap_assoc] using htail
  | trans hperm _ ih ih' =>
    exact (ih hg r).trans (ih' (fun e he => hg e (hperm.mem_iff.2 he)) r)

private theorem holdAll_eq_of_perm {g g' : Group} (hperm : g.Perm g') (x : Row) :
    holdAll D g x = holdAll D g' x := by
  rw [Bool.eq_iff_iff, holdAll_eq_true_iff, holdAll_eq_true_iff]
  simp only [hperm.mem_iff]

end Element

namespace Group

private theorem found_perm {D : List Quad} {g g' : Group} (hperm : g.Perm g')
    (hg : ∀ e ∈ g, e.isJoined = true) (r : Row) : (found D g r).Perm (found D g' r) := by
  have hsame : Element.holdAll D g = Element.holdAll D g' :=
    funext (Element.holdAll_eq_of_perm hperm)
  rw [found, found, hsame]
  exact (Element.steps_perm hperm hg r).filter _

/-- A group of triple patterns, nested groups, unions and filters has the same rows, each as often,
in whatever order its elements stand. -/
theorem rows_perm {D : List Quad} {cap cap' : Nat} {g g' : Group} (hperm : g.Perm g')
    (hg : ∀ e ∈ g, e.isJoined = true) {seeds rows rows' : List Row}
    (h : Group.rows ⟨D, cap⟩ g seeds = .ok rows) (h' : Group.rows ⟨D, cap'⟩ g' seeds = .ok rows') :
    rows.Perm rows' := by
  rw [(rows_settles D g seeds).eq_of_ok h, (rows_settles D g' seeds).eq_of_ok h']
  apply List.Perm.flatMap_left
  intro seed _
  exact found_perm hperm hg seed

/-- A pattern with a repeated variable, a nested group with an optional part and a binding, a union
and a filter with a scope, from two seeds and backwards. -/
theorem rows_perm_reversed :
    let x : Variable := ⟨"x"⟩
    let y : Variable := ⟨"y"⟩
    let z : Variable := ⟨"z"⟩
    let p : Iri := ⟨"http://e/p"⟩
    let a : Iri := ⟨"http://e/a"⟩
    let b : Iri := ⟨"http://e/b"⟩
    let D : List Quad := [⟨a, p, .iri b, none⟩, ⟨b, p, .iri b, none⟩]
    let g : Group := [.ofTriple (.var x) (.iri p) (.var y),
      .group [.ofTriple (.var y) (.var z) (.var y),
        .optional [.ofTriple (.var x) (.iri p) (.iri a)],
        .bind (.call .str [.var y]) ⟨"w"⟩],
      .union [[.ofTriple (.iri a) (.iri p) (.var x)], [.ofTriple (.var x) (.iri p) (.iri b)]],
      .filter (.exist [.ofTriple (.var y) (.var z) (.iri b)])]
    let seeds : List Row := [.empty, Row.bind .empty x (.iri a)]
    ∃ rows rows', Group.rows ⟨D, 8⟩ g seeds = .ok rows ∧
      Group.rows ⟨D, 9⟩ g.reverse seeds = .ok rows' ∧ rows.length = 4 ∧ rows ≠ rows' ∧
        rows.Perm rows' := by
  intro x y z p a b D g seeds
  have hok : (Group.rows ⟨D, 8⟩ g seeds).toOption.any (·.length = 4) = true := by decide +kernel
  have hok' : (Group.rows ⟨D, 9⟩ g.reverse seeds).isOk = true := by decide +kernel
  have hdiffer : Group.rows ⟨D, 8⟩ g seeds ≠ Group.rows ⟨D, 9⟩ g.reverse seeds := by
    decide +kernel
  obtain ⟨rows, h, hlength⟩ := exists_ok_of_any hok
  obtain ⟨rows', h'⟩ := exists_ok_of_isOk hok'
  refine ⟨rows, rows', h, h', by simpa using hlength, ?_, ?_⟩
  · rintro rfl
    exact hdiffer (h.trans h'.symm)
  · exact rows_perm (List.reverse_perm g).symm (by decide) h h'

end Group

end GraphPath
