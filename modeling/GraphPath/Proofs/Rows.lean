import Mathlib.Data.List.Basic
import GraphPath.Query.Row

/-!
# Rows as partial assignments

A row is determined by the values of variables in it. Two rows that agree have a meet, which binds
what either of them binds; joining a list of rows to a row takes the meets. Meeting is associative,
and unifying a term with a node commutes with it.
-/

namespace GraphPath

namespace Table

variable {β : Type}

private theorem lookupEntry_eq_some_iff {name : String} {value : β} {l : List (String × β)}
    (h : l.Pairwise fun a b => a.1 < b.1) :
    lookupEntry name l = some value ↔ (name, value) ∈ l := by
  induction l with
  | nil => simp [lookupEntry]
  | cons hd tl ih =>
    obtain ⟨name', value'⟩ := hd
    obtain ⟨hhd, htl⟩ := List.pairwise_cons.mp h
    by_cases hname : name = name'
    · subst hname
      have hnot : (name, value) ∉ tl := fun hmem => String.lt_irrefl name (hhd _ hmem)
      rw [lookupEntry_cons_self, List.mem_cons]
      constructor
      · intro heq
        cases heq
        exact .inl rfl
      · rintro (heq | hmem)
        · cases heq
          rfl
        · exact absurd hmem hnot
    · simp [lookupEntry, hname, ih htl]

theorem mem_entries_iff (t : Table β) (name : String) (value : β) :
    (name, value) ∈ t.entries ↔ t.get? name = some value :=
  (lookupEntry_eq_some_iff t.sorted).symm

private theorem get?_foldl_insert {l : List (String × β)} (t : Table β) (name : String)
    (h : l.Pairwise fun a b => a.1 < b.1) :
    (l.foldl (fun t p => t.insert p.1 p.2) t).get? name =
      (lookupEntry name l).or (t.get? name) := by
  induction l generalizing t with
  | nil => rfl
  | cons hd tl ih =>
    obtain ⟨hhd, htl⟩ := List.pairwise_cons.mp h
    rw [List.foldl_cons, ih _ htl, get?_insert]
    by_cases hname : name = hd.1
    · subst hname
      rw [lookupEntry_eq_none fun e he => hhd e he]
      simp [lookupEntry]
    · simp [lookupEntry, hname]

theorem get?_insertAll (t t' : Table β) (name : String) :
    (t.insertAll t'.entries).get? name = (t'.get? name).or (t.get? name) :=
  get?_foldl_insert t name t'.sorted

end Table

namespace Row

theorem ext_value? {a b : Row} (h : ∀ v, a.value? v = b.value? v) : a = b :=
  Table.ext_get? fun name => h ⟨name⟩

@[simp] theorem value?_merge (l r : Row) (v : Variable) :
    (l.merge r).value? v = (r.value? v).or (l.value? v) :=
  Table.get?_insertAll l r v.name

theorem agrees_iff {l r : Row} :
    l.agrees r = true ↔ ∀ v n m, l.value? v = some n → r.value? v = some m → n = m := by
  unfold agrees
  rw [List.all_eq_true]
  constructor
  · intro h v n m hl hr
    have hentry := h (v.name, m) ((Table.mem_entries_iff r v.name m).mpr hr)
    change l.get? v.name = some n at hl
    simpa [hl] using hentry
  · rintro h ⟨name, m⟩ hmem
    have hr := (Table.mem_entries_iff r name m).mp hmem
    cases hl : l.get? name with
    | none => simp [hl]
    | some n => simpa [hl] using h ⟨name⟩ n m hl hr

/-- Every binding of the first row is one of the second. -/
def Below (r r' : Row) : Prop := ∀ v n, r.value? v = some n → r'.value? v = some n

theorem Below.refl (r : Row) : r.Below r := fun _ _ h => h

theorem Below.trans {a b c : Row} (hab : a.Below b) (hbc : b.Below c) : a.Below c :=
  fun v n h => hbc v n (hab v n h)

theorem Below.isSome {a b : Row} (h : a.Below b) {v : Variable} (hv : (a.value? v).isSome) :
    (b.value? v).isSome := by
  obtain ⟨n, hn⟩ := Option.isSome_iff_exists.mp hv
  exact Option.isSome_of_eq_some (h v n hn)

theorem empty_below (r : Row) : Row.Below .empty r := by
  intro v n h
  simp at h

theorem Below.agrees {a b c : Row} (hac : a.Below c) (hbc : b.Below c) : a.agrees b = true := by
  rw [agrees_iff]
  intro v n m ha hb
  have := (hac v n ha).symm.trans (hbc v m hb)
  simpa using this

theorem below_bind {row : Row} {v : Variable} {n : Node} (h : row.value? v = none) :
    row.Below (row.bind v n) := by
  intro w m hw
  rw [value?_bind]
  split
  · next heq =>
    subst heq
    rw [h] at hw
    cases hw
  · exact hw

theorem bind_below {a b : Row} {v : Variable} {n : Node} (h : a.Below b)
    (hv : b.value? v = some n) : (a.bind v n).Below b := by
  intro w m hw
  rw [value?_bind] at hw
  split at hw
  · next heq => rw [heq, hv, hw]
  · exact h w m hw

/-- The row with the bindings of both rows, if they agree. -/
def meet? (l r : Row) : Option Row := if l.agrees r then some (l.merge r) else none

theorem meet?_eq_some_iff {l r m : Row} :
    l.meet? r = some m ↔ l.agrees r = true ∧ l.merge r = m := by
  simp [meet?]

theorem map_filter_agrees (l : Row) (right : List Row) :
    (right.filter l.agrees).map l.merge = right.filterMap l.meet? := by
  induction right with
  | nil => rfl
  | cons r rest ih => by_cases h : l.agrees r <;> simp [meet?, h, ih]

theorem join_eq (left right : List Row) :
    join left right = left.flatMap fun l => right.filterMap l.meet? := by
  simp [join, map_filter_agrees]

/-- A meet extends both rows, and binds nothing else. -/
theorem meet?_spec {l r m : Row} (h : l.meet? r = some m) :
    l.Below m ∧ r.Below m ∧ ∀ v, m.value? v = (l.value? v).or (r.value? v) := by
  obtain ⟨hagree, rfl⟩ := meet?_eq_some_iff.mp h
  rw [agrees_iff] at hagree
  have hvalue : ∀ v, (l.merge r).value? v = (l.value? v).or (r.value? v) := by
    intro v
    rw [value?_merge]
    cases hl : l.value? v with
    | none => simp
    | some n =>
      cases hr : r.value? v with
      | none => simp
      | some m => simp [hagree v n m hl hr]
  refine ⟨fun v n hv => ?_, fun v n hv => ?_, hvalue⟩
  · rw [hvalue, hv]
    rfl
  · rw [value?_merge, hv]
    rfl

/-- Rows below a common row have a meet, which is below it too. -/
theorem exists_meet? {l r σ : Row} (hl : l.Below σ) (hr : r.Below σ) :
    ∃ m, l.meet? r = some m ∧ m.Below σ := by
  refine ⟨l.merge r, meet?_eq_some_iff.mpr ⟨hl.agrees hr, rfl⟩, fun v n hv => ?_⟩
  rw [value?_merge] at hv
  cases hrv : r.value? v with
  | none =>
    rw [hrv] at hv
    exact hl v n hv
  | some m =>
    rw [hrv] at hv
    exact hr v n (hrv.trans hv)

theorem meet?_eq_some_of {l r m : Row} (hl : l.Below m) (hr : r.Below m)
    (hm : ∀ v, m.value? v = (l.value? v).or (r.value? v)) : l.meet? r = some m := by
  obtain ⟨m', hm', -⟩ := exists_meet? hl hr
  rw [hm']
  congr 1
  apply ext_value?
  intro v
  rw [(meet?_spec hm').2.2 v, hm v]

@[simp] theorem meet?_empty (r : Row) : r.meet? .empty = some r :=
  meet?_eq_some_of (Below.refl r) (empty_below r) (by simp)

theorem meet?_assoc {r y z : Row} (hz : r.meet? y = some z) (x : Row) :
    z.meet? x = (y.meet? x).bind r.meet? := by
  obtain ⟨hrz, hyz, hzv⟩ := meet?_spec hz
  cases hyx : y.meet? x with
  | none =>
    cases hzx : z.meet? x with
    | none => rfl
    | some m =>
      obtain ⟨hzm, hxm, -⟩ := meet?_spec hzx
      obtain ⟨w, hw, -⟩ := exists_meet? (hyz.trans hzm) hxm
      rw [hyx] at hw
      cases hw
  | some w =>
    obtain ⟨hyw, hxw, hwv⟩ := meet?_spec hyx
    rw [Option.bind_some]
    cases hrw : r.meet? w with
    | none =>
      cases hzx : z.meet? x with
      | none => rfl
      | some m =>
        obtain ⟨hzm, hxm, -⟩ := meet?_spec hzx
        obtain ⟨w', hw', hw'm⟩ := exists_meet? (hyz.trans hzm) hxm
        obtain rfl : w = w' := by simpa [hyx] using hw'
        obtain ⟨u, hu, -⟩ := exists_meet? (hrz.trans hzm) hw'm
        rw [hrw] at hu
        cases hu
    | some u =>
      obtain ⟨hru, hwu, huv⟩ := meet?_spec hrw
      obtain ⟨m, hm, hmu⟩ := exists_meet? hru (hyw.trans hwu)
      obtain rfl : z = m := by simpa [hz] using hm
      apply meet?_eq_some_of hmu (hxw.trans hwu)
      intro v
      rw [huv, hwv, hzv, Option.or_assoc]

theorem meet?_bind {r y z : Row} {v : Variable} (n : Node) (hz : r.meet? y = some z)
    (hr : r.value? v = none) (hy : y.value? v = none) :
    r.meet? (y.bind v n) = some (z.bind v n) := by
  obtain ⟨hrz, hyz, hzv⟩ := meet?_spec hz
  have hbelow : z.Below (z.bind v n) := below_bind (by simp [hzv, hr, hy])
  refine meet?_eq_some_of (hrz.trans hbelow) (bind_below (hyz.trans hbelow) (by simp)) fun w => ?_
  by_cases hw : w = v
  · subst hw
    simp [hr]
  · simp [hw, hzv]

end Row

theorem Term.unify_meet? (t : Term) (n : Node) {r y z : Row} (hz : r.meet? y = some z) :
    t.unify n z = (t.unify n y).bind r.meet? := by
  obtain ⟨hrz, hyz, hzv⟩ := Row.meet?_spec hz
  cases t with
  | node m =>
    by_cases hm : m = n <;> simp [unify, value?, hm, hz]
  | var v =>
    cases hy : y.value? v with
    | some m =>
      have hzv' : z.value? v = some m := hyz v m hy
      by_cases hm : m = n <;> simp [unify, value?, hy, hzv', hm, hz]
    | none =>
      cases hr : r.value? v with
      | none =>
        have hnone : z.value? v = none := by simp [hzv, hr, hy]
        simp only [unify, value?, hnone, hy, Option.bind_some]
        exact (Row.meet?_bind n hz hr hy).symm
      | some m =>
        have hsome : z.value? v = some m := hrz v m hr
        simp only [unify, value?, hsome, hy, Option.bind_some]
        by_cases hm : m = n
        · subst hm
          rw [if_pos rfl]
          refine (Row.meet?_eq_some_of hrz (Row.bind_below hyz hsome) fun w => ?_).symm
          by_cases hw : w = v
          · subst hw
            simp [hr, hsome]
          · simp [hw, hzv]
        · rw [if_neg hm]
          cases hbad : r.meet? (y.bind v n) with
          | none => rfl
          | some u =>
            obtain ⟨hru, hyu, -⟩ := Row.meet?_spec hbad
            have h1 := hru v m hr
            have h2 := hyu v n (by simp)
            rw [h1] at h2
            cases h2
            exact absurd rfl hm

/-- The row that binds one variable, if there is a value for it. -/
def Row.single (v : Variable) : Option Node → Row
  | some n => Row.bind .empty v n
  | none => .empty

theorem Row.value?_single (v w : Variable) (value : Option Node) :
    (Row.single v value).value? w = if w = v then value else none := by
  cases value <;> simp [Row.single]

end GraphPath
