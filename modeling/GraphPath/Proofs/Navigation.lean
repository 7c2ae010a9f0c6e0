import GraphPath.Proofs.Tracing

/-!
# Compiled navigation

What a navigational selector compiles to has, from a context whose value is stored, exactly the
values to which the selector leads. A test is either asked by the patterns that were written for it,
and then its condition always holds, or it wrote nothing and its condition is true or false.
-/

namespace GraphPath

open Emit Compile

/-- A condition compiled from a context is true or false as a predicate holds of the context. -/
structure Emission.Decides (D : List Quad) (P : Node → Prop) (context : Variable) (a : Allocator)
    (em : Emission Expr) : Prop where
  bindless : ∀ e w, .bind e w ∉ em.elements
  asked : em.value.isAlways = true → ∀ r c, r.Avoids a → r.value? context = some c →
    c.StoredIn D → ((∃ x, x ∈ Group.found D em.elements r) ↔ P c)
  silent : em.value.isAlways = false → em.elements = []
  truth : em.value.isAlways = false → ∀ r c, r.Avoids a → r.value? context = some c →
    c.StoredIn D → ∃ b, truth? (Expr.value? D em.value r) = some b ∧ (b = true ↔ P c)

/-- Compiled from a context, the step decides a predicate. -/
def Emit.Decides (D : List Quad) (P : Node → Prop) (context : Variable) (m : Emit Expr) : Prop :=
  ∀ a em, ¬ a.Pending context → m a = .ok em → em.Decides D P context a

/-- A condition that wrote nothing and decides a predicate. -/
def Emit.Judges (D : List Quad) (P : Node → Prop) (context : Variable) (m : Emit Expr) : Prop :=
  ∀ a em, ¬ a.Pending context → m a = .ok em → em.elements = [] ∧
    ∀ r c, r.Avoids a → r.value? context = some c → c.StoredIn D →
      ∃ b, truth? (Expr.value? D em.value r) = some b ∧ (b = true ↔ P c)

section Tests

variable {D : List Quad} {P Q : Node → Prop} {R : Node → Node → Prop} {context : Variable}

theorem truth?_always (r : Row) : truth? (Expr.value? D .always r) = some true := by
  rw [Expr.value?, truth?_ofTruth]

theorem isAlways_eq_true {e : Expr} (h : e.isAlways = true) : e = .always := by
  cases e <;> first | rfl | cases h

theorem truth?_both (l l' : Expr) (r : Row) : truth? (Expr.value? D (.both l l') r) =
    bothTrue (truth? (Expr.value? D l r)) (truth? (Expr.value? D l' r)) := by
  have htrue : ∀ t, bothTrue (some true) t = t ∧ bothTrue t (some true) = t := by
    rintro (_ | _ | _) <;> exact ⟨rfl, rfl⟩
  unfold Expr.both
  split
  · rw [truth?_always, (htrue _).1]
  · rw [truth?_always, (htrue _).2]
  · rw [Expr.value?, truth?_ofTruth]

theorem truth?_oneOf (l l' : Expr) (r : Row) : truth? (Expr.value? D (.oneOf l l') r) =
    someTrue (truth? (Expr.value? D l r)) (truth? (Expr.value? D l' r)) := by
  have htrue : ∀ t, someTrue (some true) t = some true ∧ someTrue t (some true) = some true := by
    rintro (_ | _ | _) <;> exact ⟨rfl, rfl⟩
  unfold Expr.oneOf
  split
  · rw [truth?_always, (htrue _).1]
  · rw [truth?_always, (htrue _).2]
  · rw [Expr.value?, truth?_ofTruth]

private theorem bothTrue_some (b b' : Bool) : bothTrue (some b) (some b') = some (b && b') := by
  cases b <;> cases b' <;> rfl

private theorem someTrue_some (b b' : Bool) : someTrue (some b) (some b') = some (b || b') := by
  cases b <;> cases b' <;> rfl

private theorem Emit.Decides.enclosed {m : Emit Expr} (h : m.Decides D P context) :
    (enclosed m).Judges D P context := by
  intro a em hcontext hem
  obtain ⟨captured, last, hcaptured, hlast, rfl⟩ := bind_ok hem
  obtain ⟨inner, hinner, rfl⟩ := captured_ok hcaptured
  have hdec := h a inner hcontext hinner
  dsimp only at hlast
  split at hlast
  · next hempty =>
    cases hlast
    refine ⟨rfl, fun r c hr hc hstored => ?_⟩
    cases halways : inner.value.isAlways with
    | false => exact hdec.truth halways r c hr hc hstored
    | true =>
      have hasked := hdec.asked halways r c hr hc hstored
      rw [List.isEmpty_iff.1 hempty] at hasked
      refine ⟨true, ?_, iff_of_true rfl (hasked.1 ⟨r, ?_⟩)⟩
      · rw [isAlways_eq_true halways, truth?_always]
      · simp [Group.found, Element.steps, Element.holdAll]
  · next hempty =>
    cases hlast
    refine ⟨rfl, fun r c hr hc hstored => ?_⟩
    have halways : inner.value.isAlways = true := by
      by_contra hnot
      exact hempty (List.isEmpty_iff.2 (hdec.silent (by simpa using hnot)))
    refine ⟨_, by rw [Expr.value?, truth?_ofTruth], ?_⟩
    rw [if_pos halways, ← hdec.asked halways r c hr hc hstored]
    simp [Group.found, List.eq_nil_iff_forall_not_mem]

private theorem Emit.Judges.decides {m : Emit Expr} (h : m.Judges D P context) :
    m.Decides D P context := by
  intro a em hcontext hem
  obtain ⟨hnil, htruth⟩ := h a em hcontext hem
  refine ⟨by simp [hnil], fun halways r c hr hc hstored => ?_, fun _ => hnil, fun _ => htruth⟩
  obtain ⟨b, hb, hP⟩ := htruth r c hr hc hstored
  rw [isAlways_eq_true halways, truth?_always] at hb
  refine iff_of_true ⟨r, ?_⟩ (hP.1 (Option.some.inj hb).symm)
  simp [hnil, Group.found, Element.steps, Element.holdAll]

private theorem Emit.Judges.combine {m m' : Emit Expr} {join : Expr → Expr → Expr}
    {op : Option Bool → Option Bool → Option Bool} {J : Prop → Prop → Prop}
    (hm : m.Stays (· = context) Expr.vars) (hP : m.Judges D P context)
    (hQ : m'.Judges D Q context)
    (hjoin : ∀ l l' r, truth? (Expr.value? D (join l l') r) =
      op (truth? (Expr.value? D l r)) (truth? (Expr.value? D l' r)))
    (hop : ∀ b b' (p q : Prop), (b = true ↔ p) → (b' = true ↔ q) →
      ∃ b'', op (some b) (some b') = some b'' ∧ (b'' = true ↔ J p q)) :
    Emit.Judges D (fun c => J (P c) (Q c)) context (do
      let l ← m
      let l' ← m'
      return join l l') := by
  intro a em hcontext hem
  obtain ⟨first, rest, hfirst, hrest, rfl⟩ := bind_ok hem
  obtain ⟨second, last, hsecond, hlast, rfl⟩ := bind_ok hrest
  cases hlast
  have hlater := (hm a first hfirst).1.later
  obtain ⟨hnil, hfirst⟩ := hP a first hcontext hfirst
  obtain ⟨hnil', hsecond⟩ := hQ first.allocator second (fun hc => hcontext (hlater _ hc)) hsecond
  refine ⟨by simp [hnil, hnil'], fun r c hr hc hstored => ?_⟩
  obtain ⟨b, hb, hPb⟩ := hfirst r c hr hc hstored
  obtain ⟨b', hb', hQb⟩ := hsecond r c (hr.later hlater) hc hstored
  rw [hjoin, hb, hb']
  exact hop b b' _ _ hPb hQb

private theorem Emit.Judges.not {m : Emit Expr} (h : m.Judges D P context) :
    Emit.Judges D (fun c => ¬ P c) context (do
      let e ← m
      return .not e) := by
  intro a em hcontext hem
  obtain ⟨inner, last, hinner, hlast, rfl⟩ := bind_ok hem
  cases hlast
  obtain ⟨hnil, htruth⟩ := h a inner hcontext hinner
  refine ⟨by simp [hnil], fun r c hr hc hstored => ?_⟩
  obtain ⟨b, hb, hP⟩ := htruth r c hr hc hstored
  exact ⟨!b, by rw [Expr.value?, truth?_ofTruth, hb]; rfl, by simp [← hP]⟩

private theorem Emit.Traces.decides {m : Emit Variable} (h : m.Traces D R context) :
    Emit.Decides D (fun c => ∃ v, R c v) context (do
      let _ ← m
      return .always) := by
  intro a em hcontext hem
  obtain ⟨inner, last, hinner, hlast, rfl⟩ := bind_ok hem
  cases hlast
  have htraces := h a inner hcontext hinner
  simp only [List.append_nil]
  refine ⟨htraces.bindless, fun _ r c hr hc hstored => ?_, by simp [Expr.isAlways],
    by simp [Expr.isAlways]⟩
  constructor
  · rintro ⟨x, hx⟩
    obtain ⟨n, -, hn⟩ := htraces.exists_value hr hc hstored hx
    exact ⟨n, hn⟩
  · rintro ⟨n, hn⟩
    obtain ⟨x, hx, -⟩ := (htraces.values r c hr hc hstored n).2 hn
    exact ⟨x, hx⟩

private theorem decides_type (i : Iri) :
    Emit.Decides D (fun c => ∃ q ∈ D, c = .iri q.subject ∧ q.predicate = Iri.rdfType ∧
      q.object = .iri i) context (do
      writeTriple (.var context) (.iri Iri.rdfType) (.iri i)
      return .always) := by
  rintro a em - ⟨⟩
  refine ⟨by simp [Element.ofTriple], fun _ r c hr hc _ => ?_, by simp [Expr.isAlways],
    by simp [Expr.isAlways]⟩
  have hmatch : (∃ x ∈ Group.found D [.triple ⟨.var context, .iri Iri.rdfType, .iri i⟩] r,
      x.value? context = some c) ↔ _ :=
    exists_found_triple_iff (by simp [TriplePattern.vars, Term.vars])
  constructor
  · rintro ⟨x, hx⟩
    obtain ⟨q, hq, r', hbelow, ⟨hs, hp, ho⟩, -⟩ :=
      hmatch.1 ⟨x, hx, (Group.found_grows hx).below context c hc⟩
    refine ⟨q, hq, Option.some.inj ((hbelow context c hc).symm.trans hs), ?_, ?_⟩
    · simpa [Term.iri, Term.value?, eq_comm] using hp
    · simpa [Term.iri, Term.value?, eq_comm] using ho
  · rintro ⟨q, hq, rfl, hp, ho⟩
    obtain ⟨x, hx, -⟩ := hmatch.2 ⟨q, hq, r, .refl r,
      by simp [TriplePattern.StandsFor, Term.value?, Term.iri, hc, hp, ho], hc⟩
    exact ⟨x, hx⟩

private theorem Emission.Decides.exists_found_iff {a : Allocator} {em : Emission Expr}
    (h : em.Decides D P context a) {r : Row} {c : Node} (hr : r.Avoids a)
    (hc : r.value? context = some c) (hstored : c.StoredIn D) :
    (∃ x, x ∈ Group.found D (em.elements ++ if em.value.isAlways then []
      else [.filter em.value]) r) ↔ P c := by
  cases halways : em.value.isAlways with
  | true => simpa using h.asked halways r c hr hc hstored
  | false =>
    obtain ⟨b, hb, hP⟩ := h.truth halways r c hr hc hstored
    rw [if_neg Bool.false_ne_true, Group.found_filter, h.silent halways]
    simp [Group.found, Element.steps, Element.holdAll, hb, hP]

private theorem traces_testing {m : Emit Variable} {f : Variable → Emit Expr}
    (hm : m.Stays (· = context) fun v => [v]) (hf : ∀ v, (f v).Stays (· = v) Expr.vars)
    (hR : m.Traces D R context) (hP : ∀ v, (f v).Decides D P v)
    (hclosed : ∀ c v, c.StoredIn D → R c v → v.StoredIn D) :
    Emit.Traces D (fun c v => v = c ∧ ∃ w, R c w ∧ P w) context (do
      let value ← m
      let e ← f value
      require e
      return context) := by
  have hrest : ∀ value : Variable, Stays (fun v => v = context ∨ v ∈ [value]) (fun v => [v]) (do
      let e ← f value
      require e
      return context) := fun value =>
    ((hf value).mono fun v hv => .inr (by simp [hv])).bind fun e =>
      (stays_require fun v hv => .inr hv).bind fun _ => stays_done context (by simp)
  intro a em hcontext hem
  obtain ⟨first, rest, hfirst, hnext, rfl⟩ := bind_ok hem
  have htidy := (hm a first hfirst).1
  have htidy' := (hrest first.value first.allocator rest hnext).1
  obtain ⟨second, last, hsecond, hlast, rfl⟩ := bind_ok hnext
  obtain ⟨required, final, hrequired, hfinal, rfl⟩ := bind_ok hlast
  rw [require_apply] at hrequired
  obtain rfl := Except.ok.inj hrequired
  cases hfinal
  have hR := hR a first hcontext hfirst
  have hP := hP first.value first.allocator second (hm.value_not_pending hcontext hfirst) hsecond
  simp only [List.append_nil] at htidy' ⊢
  refine ⟨fun e w => ?_, .inl rfl, fun r c hr hc hstored n => ?_⟩
  · simp only [List.mem_append, not_or]
    refine ⟨hR.bindless e w, hP.bindless e w, ?_⟩
    split <;> simp
  · have htest : ∀ x ∈ Group.found D first.elements r, ∀ w, x.value? first.value = some w →
        R c w → ((∃ y, y ∈ Group.found D (second.elements ++ if second.value.isAlways then []
          else [.filter second.value]) x) ↔ P w) := fun x hx w hw hRw =>
      hP.exists_found_iff (htidy.avoids (hr.not_pending hc) hr (List.mem_of_mem_filter hx)) hw
        (hclosed c w hstored hRw)
    have hkeeps : ∀ x ∈ Group.found D first.elements r, ∀ g, ∀ y ∈ Group.found D g x,
        y.value? context = some c := fun x hx g y hy =>
      (Group.found_grows hy).below context c ((Group.found_grows hx).below context c hc)
    simp only [Emission.mem_values, hR.found_append htidy htidy' hc, List.mem_flatMap]
    constructor
    · rintro ⟨y, ⟨x, hx, hy⟩, hn⟩
      obtain ⟨w, hw, hRw⟩ := hR.exists_value hr hc hstored hx
      exact ⟨Option.some.inj (hn.symm.trans (hkeeps x hx _ y hy)), w, hRw,
        (htest x hx w hw hRw).1 ⟨y, hy⟩⟩
    · rintro ⟨rfl, w, hRw, hPw⟩
      obtain ⟨x, hx, hw⟩ := (hR.values r n hr hc hstored w).2 hRw
      obtain ⟨y, hy⟩ := (htest x hx w hw hRw).2 hPw
      exact ⟨y, ⟨x, hx, hy⟩, hkeeps x hx _ y hy⟩

end Tests

private theorem traces_unrolled {D : List Quad} {R : Node → Node → Prop}
    {step : Variable → Emit Variable} (hstep : ∀ v, (step v).Stays (· = v) fun v => [v])
    (hR : ∀ v, (step v).Traces D R v) (hclosed : ∀ c v, c.StoredIn D → R c v → v.StoredIn D)
    {min bound : Nat} (hmin : min ≤ bound) (context : Variable) :
    (unrolled step min bound context).Traces D
      (fun c v => ∃ k, min ≤ k ∧ k ≤ bound ∧ Repeated R k c v) context := by
  unfold unrolled
  split
  · next hone =>
    have honly : (fun c v => ∃ k, min ≤ k ∧ k ≤ bound ∧ Repeated R k c v) = Repeated R min := by
      funext c v
      rw [eq_iff_iff]
      constructor
      · rintro ⟨k, hk, hk', hv⟩
        have hk : k = min := by omega
        exact hk ▸ hv
      · intro hv
        exact ⟨min, le_refl _, hmin, hv⟩
    rw [honly]
    exact traces_iterate hstep hR hclosed min
  · have hlevels : (fun c v => ∃ k, min ≤ k ∧ k ≤ bound ∧ Repeated R k c v) =
        fun c v => ∃ i ∈ List.range (bound - min + 1), Repeated R (min + i) c v := by
      funext c v
      rw [eq_iff_iff]
      constructor
      · rintro ⟨k, hk, hk', hv⟩
        refine ⟨k - min, ?_, ?_⟩
        · rw [List.mem_range]
          omega
        · rwa [Nat.add_sub_cancel' hk]
      · rintro ⟨i, hi, hv⟩
        rw [List.mem_range] at hi
        exact ⟨min + i, by omega, by omega, hv⟩
    rw [hlevels]
    exact traces_alternatives (fun i _ => stays_iterate hstep (min + i) context) fun i _ =>
      traces_iterate hstep hR hclosed (min + i)

variable {D : List Quad}

mutual

/-- A navigational selector compiles to what leads where the selector does. -/
theorem traces_selector (hD : ∀ q ∈ D, q.object.number? ≠ some .nan) (limits : RecursionLimits)
    (s : Selector) (hs : s.isNavigational = true) (context : Variable) :
    (selector .builtin limits s context).Traces D (s.Leads D limits.maxDepth) context := by
  cases s with
  | property p =>
    rw [selector, governed_selectorRule]
    exact traces_alongProperty p
  | reverse p =>
    rw [selector, governed_selectorRule]
    exact traces_againstProperty p
  | path left right =>
    rw [Selector.isNavigational, Bool.and_eq_true] at hs
    rw [selector, governed_selectorRule]
    exact Emit.Traces.bind (stays_selector limits left context) (stays_selector limits right)
      (traces_selector hD limits left hs.1 context) (traces_selector hD limits right hs.2)
      fun c v hc hv => hv.storedIn hc
  | union left right =>
    rw [Selector.isNavigational, Bool.and_eq_true] at hs
    rw [selector, governed_selectorRule]
    have hboth : Selector.Leads D limits.maxDepth (.union left right) =
        fun c v => ∃ s ∈ [left, right], s.Leads D limits.maxDepth c v := by
      funext c v
      simp [Selector.Leads]
    have hleft := traces_selector hD limits left hs.1 context
    have hright := traces_selector hD limits right hs.2 context
    rw [hboth]
    refine traces_alternatives (m := fun s => selector .builtin limits s context)
      (fun s _ => stays_selector limits s context) fun s hs' => ?_
    rcases List.mem_pair.1 hs' with rfl | rfl
    · exact hleft
    · exact hright
  | intersection left right =>
    rw [Selector.isNavigational, Bool.and_eq_true] at hs
    rw [selector, governed_selectorRule]
    exact traces_intersection hD (stays_selector limits left context)
      (stays_selector limits right context) (traces_selector hD limits left hs.1 context)
      (traces_selector hD limits right hs.2 context)
  | recursive inner min max =>
    rw [Selector.isNavigational] at hs
    rw [selector, governed_selectorRule]
    intro a em hcontext hem
    obtain ⟨bound, hbound, hem⟩ := ofExcept_bind_ok hem
    obtain ⟨hmin, rfl⟩ := unrollingBound_ok hbound
    exact traces_unrolled (stays_selector limits inner) (traces_selector hD limits inner hs)
      (fun c v hc hv => hv.storedIn hc) hmin context a em hcontext hem
  | grouping inner =>
    rw [Selector.isNavigational] at hs
    rw [selector, governed_selectorRule]
    exact traces_selector hD limits inner hs context
  | testing delegate t =>
    rw [Selector.isNavigational, Bool.and_eq_true] at hs
    rw [selector, governed_selectorRule]
    exact traces_testing (stays_selector limits delegate context) (stays_test limits t)
      (traces_selector hD limits delegate hs.1 context) (decides_test hD limits t hs.2)
      fun c v hc hv => hv.storedIn hc
  | function name args => cases hs
  | self =>
    rw [selector, governed_selectorRule]
    exact traces_done
  | wildcard =>
    rw [selector, governed_selectorRule]
    exact traces_alongAny
  | constant n => cases hs

private theorem decides_test (hD : ∀ q ∈ D, q.object.number? ≠ some .nan) (limits : RecursionLimits)
    (t : Test) (ht : t.isNavigational = true) (context : Variable) :
    (test .builtin limits t context).Decides D (t.Holds D limits.maxDepth) context := by
  cases t with
  | isA type =>
    rcases type with _ | _ | _ | _ | _ | _ | _ | _ | _ | _ | _ | (i | l) <;> try cases ht
    rw [test, governed_testRule]
    exact decides_type i
  | and left right =>
    rw [Test.isNavigational, Bool.and_eq_true] at ht
    rw [test, governed_testRule]
    exact (Emit.Judges.combine (stays_enclosed (stays_test limits left context))
      (decides_test hD limits left ht.1 context).enclosed
      (decides_test hD limits right ht.2 context).enclosed truth?_both fun b b' p q hp hq =>
        ⟨b && b', bothTrue_some b b', by rw [Bool.and_eq_true, hp, hq]⟩).decides
  | or left right =>
    rw [Test.isNavigational, Bool.and_eq_true] at ht
    rw [test, governed_testRule]
    exact (Emit.Judges.combine (stays_enclosed (stays_test limits left context))
      (decides_test hD limits left ht.1 context).enclosed
      (decides_test hD limits right ht.2 context).enclosed truth?_oneOf fun b b' p q hp hq =>
        ⟨b || b', someTrue_some b b', by rw [Bool.or_eq_true, hp, hq]⟩).decides
  | not inner =>
    rw [Test.isNavigational] at ht
    rw [test, governed_testRule]
    exact (decides_test hD limits inner ht context).enclosed.not.decides
  | pathExists path =>
    rw [Test.isNavigational] at ht
    rw [test, governed_testRule]
    exact (traces_selector hD limits path ht context).decides
  | comparison op left right => cases ht
  | pathEquality left right => cases ht
  | language tag => cases ht
  | datatype type => cases ht

end

/-- Compiled from a context whose value is stored, a navigational selector has exactly the values
to which it leads. Evaluation gives its rows from some cap on and below it fails for their number;
each row keeps the seed and has a value. -/
theorem navigation_exact (hD : ∀ q ∈ D, q.object.number? ≠ some .nan) {limits : RecursionLimits}
    {s : Selector} (hs : s.isNavigational = true) {context : Variable} {a : Allocator}
    {em : Emission Variable} (hem : selector .builtin limits s context a = .ok em) {seed : Row}
    {c : Node} (hseed : seed.Avoids a) (hc : seed.value? context = some c)
    (hstored : c.StoredIn D) :
    ∃ rows, Settles (fun cap => Group.rows ⟨D, cap⟩ em.elements [seed]) rows ∧
      (∀ row ∈ rows, seed.Below row ∧ (row.value? em.value).isSome) ∧
      ∀ v, (∃ row ∈ rows, row.value? em.value = some v) ↔ s.Leads D limits.maxDepth c v := by
  have htraces := traces_selector hD limits s hs context a em (hseed.not_pending hc) hem
  refine ⟨Group.found D em.elements seed, ?_, fun row hrow => ⟨(Group.found_grows hrow).below,
    htraces.isSome hc (List.mem_of_mem_filter hrow)⟩, htraces.values seed c hseed hc hstored⟩
  simpa using Group.rows_settles D em.elements [seed]

/-- Two resources that lead to each other: where a repetition leads from one of them, and no path to
a type starts at itself or its predecessor. -/
theorem navigation_exact_cycle :
    let p : Iri := ⟨"http://e/p"⟩
    let D : List Quad := [⟨⟨"http://e/a"⟩, p, .iri ⟨"http://e/b"⟩, none⟩,
      ⟨⟨"http://e/b"⟩, p, .iri ⟨"http://e/a"⟩, none⟩]
    let s : Selector := .intersection (.recursive (.property p) 0 none)
      (.testing (.union .self (.reverse p)) (.not (.pathExists (.property Iri.rdfType))))
    let seed := Row.bind .empty ⟨"x"⟩ (.iri ⟨"http://e/a"⟩)
    ∃ em rows, selector .builtin {} s ⟨"x"⟩ ⟨"v", ⟨"x"⟩, 0⟩ = .ok em ∧
      Settles (fun cap => Group.rows ⟨D, cap⟩ em.elements [seed]) rows ∧
      (∀ row ∈ rows, seed.Below row ∧ (row.value? em.value).isSome) ∧
      ∀ v, (∃ row ∈ rows, row.value? em.value = some v) ↔
        s.Leads D 5 (.iri ⟨"http://e/a"⟩) v := by
  intro p D s seed
  obtain ⟨em, hem⟩ : ∃ em, selector .builtin {} s ⟨"x"⟩ ⟨"v", ⟨"x"⟩, 0⟩ = .ok em :=
    exists_ok_of_isOk (by decide +kernel)
  obtain ⟨rows, hrows⟩ := navigation_exact (D := D) (by decide) rfl hem
    (Row.avoids_bind_empty (Allocator.root_not_pending ⟨"v", ⟨"x"⟩, 0⟩) (.iri ⟨"http://e/a"⟩))
    (by simp) ⟨_, List.mem_cons_self, .inl rfl⟩
  exact ⟨em, rows, hem, hrows⟩

end GraphPath
