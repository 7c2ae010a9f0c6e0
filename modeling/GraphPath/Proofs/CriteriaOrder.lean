import GraphPath.Proofs.Conjunction
import GraphPath.Proofs.Equivariance

/-!
# The order of criteria

Criteria are matched one after the other, and a binding sees only what has a value so far. As long
as no binding reads the resource before it has one, a resource is found if every criterion matches
from it and something gives it as a value: the types, or a criterion on its own. Neither depends on
the order of the criteria nor on the variables that each of them takes.
-/

namespace GraphPath

open Emit Compile

section Blocks

variable {D : List Quad} {root : Variable} {ms : List (Emit Unit)} {a a₁ a' : Allocator}
  {ems : List (Emission Unit)} {c : Node}

private theorem exists_meet_resource {x : Row}
    (hx : x.value? root = none ∨ x.value? root = some c) :
    ∃ x', (Row.bind .empty root c).meet? x = some x' ∧ x'.value? root = some c ∧
      ∀ v ≠ root, x'.value? v = x.value? v := by
  have hbelow : x.Below (x.bind root c) := by
    intro v n hv
    by_cases heq : v = root
    · subst heq
      rcases hx with hx | hx <;> rw [hx] at hv <;> cases hv
      simp
    · simp [heq, hv]
  have hresource : (Row.bind .empty root c).Below (x.bind root c) :=
    Row.bind_below (Row.empty_below _) (by simp)
  obtain ⟨x', hx', -⟩ := Row.exists_meet? hresource hbelow
  obtain ⟨hroot, -, hvalue⟩ := Row.meet?_spec hx'
  refine ⟨x', hx', hroot root c (by simp), fun v hv => ?_⟩
  rw [hvalue]
  simp [hv]

private theorem meet_resource_self {z : Row} (hz : z.value? root = some c) :
    (Row.bind .empty root c).meet? z = some z := by
  obtain ⟨z', hz', hroot, hvalue⟩ := exists_meet_resource (.inr hz)
  rw [hz', Option.some_inj]
  refine Row.ext_value? fun v => ?_
  by_cases hv : v = root
  · rw [hv, hroot, hz]
  · exact hvalue v hv

private theorem value?_of_mem_steps_after {b rest : Group} (hb : b.Tidy (· = root) a a₁)
    (hrest : rest.Tidy (· = root) a₁ a') {y z : Row} (hz : z ∈ Element.steps D rest y)
    {v : Variable} (hv : v ∈ b.vars) (hne : v ≠ root) : z.value? v = y.value? v := by
  refine (Element.steps_grows hz).outside v fun hmem => ?_
  have hspent := (hb.written v hv).resolve_left hne
  exact hspent.2 ((hrest.vars hmem).resolve_left hne)

private theorem mem_steps_meet_iff {before g : Group} (htidy : g.Tidy (· = root) a a')
    (hroot : ¬ a.Pending root) (hgrounded : Group.BindingsGrounded D root (before ++ g))
    {x x' : Row} (hx : x ∈ Element.steps D before .empty)
    (hx' : (Row.bind .empty root c).meet? x = some x') {z : Row} :
    z ∈ Element.steps D g x' ↔
      ∃ y ∈ Element.steps D g x, (Row.bind .empty root c).meet? y = some z := by
  have hmeet := Element.meet?_flatMap_steps before g hgrounded
    (htidy.joinable (Row.avoids_bind_empty hroot c)) hx
  rw [hx', Option.toList_some, List.flatMap_singleton] at hmeet
  rw [hmeet, List.mem_filterMap]

private theorem avoids_of_meet_resource {x x' : Row} (hroot : ¬ a.Pending root) (hx : x.Avoids a)
    (hvalue : ∀ v ≠ root, x'.value? v = x.value? v) : x'.Avoids a := by
  intro v hv
  have hne : v ≠ root := fun heq => hroot (heq ▸ hv)
  rw [hvalue v hne, hx v hv]

private theorem forall_found_of_found {before : Group} (hruns : Runs ms a ems a')
    (hms : ∀ m ∈ ms, m.Stays (· = root) fun _ => []) (hroot : ¬ a.Pending root)
    (hgrounded : Group.BindingsGrounded D root (before ++ (ems.map Emission.elements).flatten))
    {x z : Row} (hx : x ∈ Element.steps D before .empty) (havoids : x.Avoids a)
    (hz : z ∈ Group.found D (ems.map Emission.elements).flatten x) (hc : z.value? root = some c) :
    ∀ em ∈ ems, ∃ row, row ∈ Group.found D em.elements (Row.bind .empty root c) := by
  have hxroot : x.value? root = none ∨ x.value? root = some c := by
    cases hxc : x.value? root with
    | none => exact .inl rfl
    | some n => exact .inr (((Group.found_grows hz).below root n hxc).symm.trans hc)
  obtain ⟨x', hx', hx'c, hvalue⟩ := exists_meet_resource hxroot
  have hz' : z ∈ Group.found D (ems.map Emission.elements).flatten x' := by
    rw [Group.found, List.mem_filter] at hz ⊢
    exact ⟨(mem_steps_meet_iff (hruns.tidy hms) hroot hgrounded hx hx').2
      ⟨z, hz.1, meet_resource_self hc⟩, hz.2⟩
  exact (exists_found_blocks_iff hruns hms (avoids_of_meet_resource hroot havoids hvalue) hx'c).1
    ⟨z, hz'⟩

private theorem exists_found_of_found (hruns : Runs ms a ems a')
    (hms : ∀ m ∈ ms, m.Stays (· = root) fun _ => []) (hroot : ¬ a.Pending root) {x z : Row}
    (havoids : x.Avoids a) (hx : x.value? root = none)
    (hz : z ∈ Group.found D (ems.map Emission.elements).flatten x) (hc : z.value? root = some c) :
    ∃ em ∈ ems, ∃ row ∈ Group.found D em.elements .empty, row.value? root = some c := by
  induction hruns generalizing x with
  | nil a =>
    simp only [List.map_nil, List.flatten_nil, Group.found, Element.steps, Element.holdAll,
      List.filter_cons_of_pos, List.filter_nil, List.mem_singleton] at hz
    rw [hz, hx] at hc
    cases hc
  | @cons m ms a a' em ems head tail ih =>
    have hms' : ∀ m ∈ ms, m.Stays (· = root) fun _ => [] :=
      fun m hm => hms m (List.mem_cons_of_mem _ hm)
    have htidy := (hms m List.mem_cons_self a em head).1
    rw [List.map_cons, List.flatten_cons, Group.found, List.mem_filter, Element.steps_append,
      List.mem_flatMap, Element.holdAll_append, Bool.and_eq_true] at hz
    obtain ⟨⟨y, hy, hzy⟩, hhold, hhold'⟩ := hz
    cases hyc : y.value? root with
    | none =>
      obtain ⟨em', hem', hrow⟩ := ih hms' (fun hp => hroot (htidy.later _ hp))
        (htidy.avoids hroot havoids hy) hyc (List.mem_filter.2 ⟨hzy, hhold'⟩)
      exact ⟨em', List.mem_cons_of_mem _ hem', hrow⟩
    | some n =>
      have hzc := (Element.steps_grows hzy).below root n hyc
      -- the filters of the block read what the later blocks do not change any more
      have hfilters : Element.holdAll D em.elements y = true := by
        rw [← hhold]
        refine Element.holdAll_congr fun e he v hv => ?_
        by_cases heq : v = root
        · rw [heq, hyc, hzc]
        · exact (value?_of_mem_steps_after htidy (tail.tidy hms') hzy
            (Element.mem_groupVars_of_mem he hv) heq).symm
      obtain ⟨row, hrow, hrowc⟩ := (exists_found_congr htidy havoids (Row.avoids_empty a)
        (by simp [hx]) (· = some c)).1
          ⟨y, List.mem_filter.2 ⟨hy, hfilters⟩, by rw [hyc, ← hzc, hc]⟩
      exact ⟨em, List.mem_cons_self, row, hrow, hrowc⟩

private theorem mem_found_append_of_mem {b rest : Group} (hb : b.Tidy (· = root) a a₁)
    (hrest : rest.Tidy (· = root) a₁ a') {x y w z : Row} (hy : y ∈ Element.steps D b x)
    (hw : Element.holdAll D b w = true) (hwc : w.value? root = some c)
    (hwy : ∀ v ≠ root, w.value? v = y.value? v) (hz : z ∈ Group.found D rest y)
    (hc : z.value? root = some c) : z ∈ Group.found D (b ++ rest) x := by
  rw [Group.found, List.mem_filter] at hz ⊢
  rw [Element.steps_append, List.mem_flatMap, Element.holdAll_append, Bool.and_eq_true]
  refine ⟨⟨y, hy, hz.1⟩, ?_, hz.2⟩
  rw [← hw]
  refine Element.holdAll_congr fun e he v hv => ?_
  by_cases heq : v = root
  · rw [heq, hc, hwc]
  · rw [hwy v heq]
    exact value?_of_mem_steps_after hb hrest hz.1 (Element.mem_groupVars_of_mem he hv) heq

/-- If every block matches from the resource, and it is known or a block gives it on its own, a row
with the resource is found. -/
theorem exists_found_of_forall_found {before : Group} (hruns : Runs ms a ems a')
    (hms : ∀ m ∈ ms, m.Stays (· = root) fun _ => []) (hroot : ¬ a.Pending root)
    (hgrounded : Group.BindingsGrounded D root (before ++ (ems.map Emission.elements).flatten))
    {x : Row} (hx : x ∈ Element.steps D before .empty) (havoids : x.Avoids a)
    (hall : ∀ em ∈ ems, ∃ row, row ∈ Group.found D em.elements (Row.bind .empty root c))
    (hgives : x.value? root = some c ∨ x.value? root = none ∧
      ∃ em ∈ ems, ∃ row ∈ Group.found D em.elements .empty, row.value? root = some c) :
    ∃ z ∈ Group.found D (ems.map Emission.elements).flatten x, z.value? root = some c := by
  induction hruns generalizing x before with
  | nil a =>
    have hxc := hgives.resolve_right (by simp)
    exact ⟨x, by simp [Group.found, Element.steps, Element.holdAll], hxc⟩
  | @cons m ms a a' em ems head tail ih =>
    have hms' : ∀ m ∈ ms, m.Stays (· = root) fun _ => [] :=
      fun m hm => hms m (List.mem_cons_of_mem _ hm)
    have htidy := (hms m List.mem_cons_self a em head).1
    have hlater : ∀ em ∈ ems, ∃ row, row ∈ Group.found D em.elements (Row.bind .empty root c) :=
      fun em hem => hall em (List.mem_cons_of_mem _ hem)
    rw [List.map_cons, List.flatten_cons] at hgrounded ⊢
    rcases hgives with hxc | ⟨hxroot, em', hem', row, hrow, hrowc⟩
    · obtain ⟨z, hz⟩ := (exists_found_blocks_iff (.cons head tail) hms havoids hxc).2 hall
      exact ⟨z, hz, (Group.found_grows hz).below root c hxc⟩
    rcases List.mem_cons.1 hem' with rfl | hem'
    · -- the first block gives the resource, and the others match from it
      obtain ⟨y, hy, hyc⟩ := (exists_found_congr htidy havoids (Row.avoids_empty a)
        (by simp [hxroot]) (· = some c)).2 ⟨row, hrow, hrowc⟩
      obtain ⟨hsteps, hhold⟩ := List.mem_filter.1 hy
      obtain ⟨z, hz⟩ := (exists_found_blocks_iff tail hms' (htidy.avoids hroot havoids hsteps)
        hyc).2 hlater
      have hzc := (Group.found_grows hz).below root c hyc
      exact ⟨z, mem_found_append_of_mem htidy (tail.tidy hms') hsteps hhold hyc (fun _ _ => rfl)
        hz hzc, hzc⟩
    · -- the first block matches from the resource; without it, it leaves it open or gives the same
      obtain ⟨x', hx', hx'c, hvalue⟩ := exists_meet_resource (x := x) (c := c) (.inl hxroot)
      obtain ⟨w, hw⟩ := (exists_found_iff_of_root htidy
        (avoids_of_meet_resource hroot havoids hvalue) hx'c).2 (hall em List.mem_cons_self)
      obtain ⟨hsteps, hhold⟩ := List.mem_filter.1 hw
      obtain ⟨y, hy, hyw⟩ := (mem_steps_meet_iff htidy hroot
        (Group.BindingsGrounded.of_append (by rwa [List.append_assoc])) hx hx').1 hsteps
      obtain ⟨hwroot, hyw', hwvalue⟩ := Row.meet?_spec hyw
      have hwc := hwroot root c (by simp)
      have hyc : y.value? root = some c ∨ y.value? root = none := by
        cases hyc : y.value? root with
        | none => exact .inr rfl
        | some n => exact .inl ((hyw' root n hyc).symm.trans hwc)
      have hy' : y ∈ Element.steps D (before ++ em.elements) .empty := by
        rw [Element.steps_append]
        exact List.mem_flatMap.2 ⟨x, hx, hy⟩
      obtain ⟨z, hz, hzc⟩ := ih hms' (fun hp => hroot (htidy.later _ hp))
        (by rwa [List.append_assoc]) hy' (htidy.avoids hroot havoids hy) hlater
        (hyc.imp_right fun hnone => ⟨hnone, em', hem', row, hrow, hrowc⟩)
      have hwy : ∀ v ≠ root, w.value? v = y.value? v := by
        intro v hv
        rw [hwvalue]
        simp [hv]
      exact ⟨z, mem_found_append_of_mem htidy (tail.tidy hms') hy hhold hwc hwy hz hzc, hzc⟩

/-- From a row before the blocks, rows with the resource are found exactly if every block matches
from it, and it is known or a block gives it on its own. -/
theorem exists_found_blocks_resource_iff {before : Group} (hruns : Runs ms a ems a')
    (hms : ∀ m ∈ ms, m.Stays (· = root) fun _ => []) (hroot : ¬ a.Pending root)
    (hgrounded : Group.BindingsGrounded D root (before ++ (ems.map Emission.elements).flatten))
    {x : Row} (hx : x ∈ Element.steps D before .empty) (havoids : x.Avoids a) :
    (∃ z ∈ Group.found D (ems.map Emission.elements).flatten x, z.value? root = some c) ↔
      (∀ em ∈ ems, ∃ row, row ∈ Group.found D em.elements (Row.bind .empty root c)) ∧
      (x.value? root = some c ∨ x.value? root = none ∧
        ∃ em ∈ ems, ∃ row ∈ Group.found D em.elements .empty, row.value? root = some c) := by
  constructor
  · rintro ⟨z, hz, hc⟩
    refine ⟨forall_found_of_found hruns hms hroot hgrounded hx havoids hz hc, ?_⟩
    cases hxc : x.value? root with
    | none => exact .inr ⟨rfl, exists_found_of_found hruns hms hroot havoids hxc hz hc⟩
    | some n =>
      rw [← hc, (Group.found_grows hz).below root n hxc]
      exact .inl rfl
  · rintro ⟨hall, hgives⟩
    exact exists_found_of_forall_found hruns hms hroot hgrounded hx havoids hall hgives

end Blocks

private theorem Constraint.rename_condition (ρ : Variable → Variable) (c : Constraint)
    (value : Variable) :
    (c.condition value).rename ρ = c.condition (ρ value) := by
  unfold Constraint.condition
  split <;> rfl

theorem mimics_criterion {ρ : Variable → Variable} {V : Set Variable} (hρ : Set.InjOn ρ V)
    (limits : RecursionLimits) (k : Criterion) {root root' : Variable}
    (hroot : Variable.Renamed ρ V root root') :
    Mimics ρ V (fun _ _ => True) (k.emit .builtin limits root) (k.emit .builtin limits root') := by
  refine (mimics_selector hρ limits k.selector hroot).bind fun value value' hvalue => ?_
  cases k.constraint with
  | none => exact mimics_done trivial
  | some c =>
    have hwrite := mimics_write (ρ := ρ) (V := V) (.filter (c.condition value))
    rw [Element.rename, Constraint.rename_condition, ← hvalue.2] at hwrite
    exact hwrite

namespace Criterion

variable {D : List Quad} {limits : RecursionLimits} {k : Criterion} {root : Variable}
  {a b : Allocator} {em em' : Emission Unit}

private theorem exists_found_iff (ha : ¬ a.Pending root) (hb : ¬ b.Pending root)
    (hem : k.emit .builtin limits root a = .ok em) (hem' : k.emit .builtin limits root b = .ok em')
    {r : Row} (hr : r.Avoids a) (hr' : r.Avoids b) (P : Option Node → Prop) :
    (∃ row ∈ Group.found D em.elements r, P (row.value? root)) ↔
      ∃ row ∈ Group.found D em'.elements r, P (row.value? root) := by
  have hρ := Allocator.injOn_relabel ha hb
  obtain ⟨em'', hem'', hrenamed⟩ := mimics_criterion hρ limits k (Allocator.renamed_context ha) a b
    em Allocator.tracks_relabel hem
  obtain rfl := Except.ok.inj (hem''.symm.trans hem')
  have htidy := (stays_criterion limits k root a em hem).1
  have hfound := Group.found_rename hρ D em.elements (fun v hv => htidy.vars hv)
    (Allocator.mirrors_relabel ha hr hr' rfl)
  rw [← hrenamed.elements] at hfound
  refine exists_mem_iff_of_forall₂ hfound fun x x' hmirrors => ?_
  have hvalue := hmirrors root (.inl rfl)
  rw [Allocator.relabel_context ha] at hvalue
  rw [hvalue]

/-- Compiled with some variables, the criterion finds the resource from the seed. -/
def Finds (D : List Quad) (limits : RecursionLimits) (root : Variable) (k : Criterion) (seed : Row)
    (c : Node) : Prop :=
  ∃ a em, ¬ a.Pending root ∧ seed.Avoids a ∧ k.emit .builtin limits root a = .ok em ∧
    ∃ row ∈ Group.found D em.elements seed, row.value? root = some c

private theorem finds_iff {seed : Row} (hseed : seed.Avoids a) (ha : ¬ a.Pending root)
    (hem : k.emit .builtin limits root a = .ok em) (c : Node) :
    k.Finds D limits root seed c ↔
      ∃ row ∈ Group.found D em.elements seed, row.value? root = some c := by
  constructor
  · rintro ⟨b, em', hb, hseed', hem', hrow⟩
    exact (exists_found_iff hb ha hem' hem hseed' hseed (· = some c)).1 hrow
  · intro hrow
    exact ⟨a, em, ha, hseed, hem, hrow⟩

private theorem finds_self_iff (ha : ¬ a.Pending root)
    (hem : k.emit .builtin limits root a = .ok em) (c : Node) :
    k.Finds D limits root (Row.bind .empty root c) c ↔
      ∃ row, row ∈ Group.found D em.elements (Row.bind .empty root c) := by
  rw [finds_iff (Row.avoids_bind_empty ha c) ha hem]
  constructor
  · rintro ⟨row, hrow, -⟩
    exact ⟨row, hrow⟩
  · rintro ⟨row, hrow⟩
    exact ⟨row, hrow, (Group.found_grows hrow).below root c (by simp)⟩

end Criterion

/-- Where a binding of the session's pattern reads the resource, the resource has a value. -/
def Session.BindingsGrounded (D : List Quad) (s : Session) : Prop :=
  ∀ em, s.emit (.ofSettings s.settings) = .ok em → em.elements.BindingsGrounded D s.root

private theorem Session.bindingsGrounded_of_not_reads {D : List Quad} {s : Session}
    (h : (s.emit (.ofSettings s.settings)).toOption.any
      (fun em => em.elements.all fun e => !e.reads s.root) = true) : s.BindingsGrounded D := by
  intro em hem
  obtain ⟨em', hem', hreads⟩ := exists_ok_of_any h
  obtain rfl := Except.ok.inj (hem.symm.trans hem')
  exact Group.bindingsGrounded_of_not_reads (by simpa using hreads)

private theorem bindingsGrounded_typePattern_append {D : List Quad} {root : Variable}
    {types : List Iri} (htypes : types ≠ []) (g : Group) :
    Group.BindingsGrounded D root (typePattern root types ++ g) := by
  refine Group.BindingsGrounded.append (Group.bindingsGrounded_of_bindless
    (by simp [typePattern, Element.ofTriple])) fun before e target after _ _ r hr => ?_
  rw [Element.steps_append, List.mem_flatMap] at hr
  obtain ⟨x, hx, hr⟩ := hr
  exact (Element.steps_grows hr).below.isSome (isSome_of_mem_steps_typePattern htypes hx)

/-- The resources that a session returns, by what each criterion finds: every criterion finds the
resource from itself, and the types or a criterion on its own give it. -/
theorem Session.mem_results_iff {s : Session} {store : Store} {D : List Quad}
    (hD : store.quads.filter (Quad.isVisible s.graph) = D) (hregistry : s.registry = .builtin)
    (horder : s.orderBy = []) (hlimit : s.limit = none) (hoffset : s.offset = none)
    (hgrounded : s.types ≠ [] ∨ s.BindingsGrounded D) {results : List Iri}
    (h : s.execute store.select = .ok results) (i : Iri) :
    i ∈ results ↔ ∃ x ∈ Element.steps D (typePattern s.root s.types) .empty,
      (∀ k ∈ s.criteria, k.Finds D s.settings.recursion s.root
        (Row.bind .empty s.root (.iri i)) (.iri i)) ∧
      (x.value? s.root = some (.iri i) ∨ x.value? s.root = none ∧
        ∃ k ∈ s.criteria, k.Finds D s.settings.recursion s.root .empty (.iri i)) := by
  obtain ⟨em, hem, -, hmem⟩ := Session.execute_ok hlimit hoffset h
  rw [hD] at hmem
  obtain ⟨-, ems, a', hruns, helements⟩ := Session.emit_ok horder hem
  rw [← typePattern] at helements
  have hroot : ¬ (Allocator.ofSettings s.settings).Pending s.root :=
    Allocator.root_not_pending (.ofSettings s.settings)
  have hgrounded' : Group.BindingsGrounded D s.root
      (typePattern s.root s.types ++ (ems.map Emission.elements).flatten) := by
    rcases hgrounded with htypes | hgrounded
    · exact bindingsGrounded_typePattern_append htypes _
    · rw [← helements]
      exact hgrounded em hem
  rw [hregistry] at hruns
  have hstays := stays_criteria s.settings.recursion s.criteria s.root
  have hems := (hruns.forall₂ hstays).2
  rw [List.forall₂_map_left_iff] at hems
  have hall : (∀ k ∈ s.criteria, k.Finds D s.settings.recursion s.root
      (Row.bind .empty s.root (.iri i)) (.iri i)) ↔
        ∀ em ∈ ems, ∃ row, row ∈ Group.found D em.elements (Row.bind .empty s.root (.iri i)) := by
    refine forall_mem_iff_of_forall₂ hems ?_
    rintro k em ⟨b, hb, hab, -⟩
    exact Criterion.finds_self_iff (fun hp => hroot (hab _ hp)) hb _
  have hgives : (∃ k ∈ s.criteria, k.Finds D s.settings.recursion s.root .empty (.iri i)) ↔
      ∃ em ∈ ems, ∃ row ∈ Group.found D em.elements .empty,
        row.value? s.root = some (.iri i) := by
    refine exists_mem_iff_of_forall₂ hems ?_
    rintro k em ⟨b, hb, hab, -⟩
    exact Criterion.finds_iff (Row.avoids_empty b) (fun hp => hroot (hab _ hp)) hb _
  have hblocks (x : Row) (hx : x ∈ Element.steps D (typePattern s.root s.types) .empty) :=
    exists_found_blocks_resource_iff (c := .iri i) hruns hstays hroot hgrounded' hx
      (avoids_of_mem_steps_typePattern hroot hx)
  rw [hmem, helements, found_typePattern_append, hall, hgives]
  simp only [List.mem_flatMap]
  constructor
  · rintro ⟨z, ⟨x, hx, hz⟩, hc⟩
    exact ⟨x, hx, (hblocks x hx).1 ⟨z, hz, hc⟩⟩
  · rintro ⟨x, hx, hfinds⟩
    obtain ⟨z, hz, hc⟩ := (hblocks x hx).2 hfinds
    exact ⟨z, ⟨x, hx, hz⟩, hc⟩

/-- Sessions that differ in the order of their criteria return the same resources, if they ask for a
type or no binding reads the resource before it has a value, in either order. -/
theorem execute_perm {s : Session} {criteria : List Criterion} (hperm : s.criteria.Perm criteria)
    {store : Store} (hregistry : s.registry = .builtin) (horder : s.orderBy = [])
    (hlimit : s.limit = none) (hoffset : s.offset = none)
    (hgrounded : s.types ≠ [] ∨
      s.BindingsGrounded (store.quads.filter (Quad.isVisible s.graph)) ∧
      { s with criteria }.BindingsGrounded (store.quads.filter (Quad.isVisible s.graph)))
    {results results' : List Iri} (h : s.execute store.select = .ok results)
    (h' : { s with criteria }.execute store.select = .ok results') :
    ∀ i, i ∈ results ↔ i ∈ results' := by
  intro i
  rw [Session.mem_results_iff rfl hregistry horder hlimit hoffset
      (hgrounded.imp_right And.left) h,
    Session.mem_results_iff (s := { s with criteria }) rfl hregistry horder hlimit hoffset
      (hgrounded.imp_right And.right) h']
  simp only [hperm.mem_iff]
  rfl

/-- A criterion that reads the resource where a type is asked for, and criteria without a type that
read it in patterns only. -/
theorem execute_perm_two_criteria :
    let t : Iri := ⟨"http://e/T"⟩
    let p : Iri := ⟨"http://e/p"⟩
    let store : Store := { quads := [⟨⟨"http://e/a"⟩, Iri.rdfType, .iri t, none⟩,
      ⟨⟨"http://e/a"⟩, p, .iri ⟨"http://e/b"⟩, none⟩] }
    let typed : Session := { Session.start .builtin {} none with
      types := [t]
      criteria := [⟨.function "str" [.self], some ⟨.contains, .literal (.plain "a")⟩⟩,
        ⟨.property p, none⟩] }
    let untyped : Session := { Session.start .builtin {} none with
      criteria := [⟨.function "str" [.property p], some ⟨.contains, .literal (.plain "b")⟩⟩,
        ⟨.property p, none⟩] }
    (∃ results results', typed.execute store.select = .ok results ∧
      { typed with criteria := typed.criteria.reverse }.execute store.select = .ok results' ∧
        ∀ i, i ∈ results ↔ i ∈ results') ∧
    ∃ results results', untyped.execute store.select = .ok results ∧
      { untyped with criteria := untyped.criteria.reverse }.execute store.select = .ok results' ∧
        ∀ i, i ∈ results ↔ i ∈ results' := by
  intro t p store typed untyped
  constructor
  · obtain ⟨results, h⟩ := exists_ok_of_isOk
      (by decide +kernel : (typed.execute store.select).isOk = true)
    obtain ⟨results', h'⟩ := exists_ok_of_isOk (by decide +kernel :
      ({ typed with criteria := typed.criteria.reverse }.execute store.select).isOk = true)
    exact ⟨results, results', h, h', execute_perm (List.reverse_perm _).symm rfl rfl rfl rfl
      (.inl (by decide)) h h'⟩
  · obtain ⟨results, h⟩ := exists_ok_of_isOk
      (by decide +kernel : (untyped.execute store.select).isOk = true)
    obtain ⟨results', h'⟩ := exists_ok_of_isOk (by decide +kernel :
      ({ untyped with criteria := untyped.criteria.reverse }.execute store.select).isOk = true)
    exact ⟨results, results', h, h', execute_perm (List.reverse_perm _).symm rfl rfl rfl rfl
      (.inr ⟨Session.bindingsGrounded_of_not_reads (by decide +kernel),
        Session.bindingsGrounded_of_not_reads (by decide +kernel)⟩) h h'⟩

/-- Without a type, a criterion that computes a text from the resource finds nothing unless another
one comes before it and gives the resource. -/
theorem criteria_order_matters :
    let p : Iri := ⟨"http://e/p"⟩
    let store : Store := { quads := [⟨⟨"http://e/a"⟩, p, .iri ⟨"http://e/b"⟩, none⟩] }
    let s : Session := { Session.start .builtin {} none with
      criteria := [⟨.function "str" [.self], some ⟨.contains, .literal (.plain "a")⟩⟩,
        ⟨.property p, none⟩] }
    s.execute store.select = .ok [] ∧
      { s with criteria := s.criteria.reverse }.execute store.select =
        .ok [⟨"http://e/a"⟩] := by
  decide +kernel

end GraphPath
