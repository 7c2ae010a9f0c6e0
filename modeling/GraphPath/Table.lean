/-!
# Tables

A finite map from names to values, kept as a list of entries in increasing order of their names.
Two tables with the same look-ups are equal, so a table can be reasoned about through `get?` alone.
-/

namespace GraphPath

structure Table (β : Type) where
  entries : List (String × β)
  sorted : entries.Pairwise fun a b => a.1 < b.1
deriving DecidableEq

namespace Table

variable {β : Type}

/-- The entries with the value of one name set. -/
def insertEntry (name : String) (value : β) : List (String × β) → List (String × β)
  | [] => [(name, value)]
  | (name', value') :: rest =>
    if name < name' then (name, value) :: (name', value') :: rest
    else if name = name' then (name, value) :: rest
    else (name', value') :: insertEntry name value rest

theorem mem_insertEntry {name : String} {value : β} {e : String × β} {l : List (String × β)}
    (h : e ∈ insertEntry name value l) : e = (name, value) ∨ e ∈ l := by
  induction l with
  | nil => simpa [insertEntry] using h
  | cons hd tl ih =>
    obtain ⟨name', value'⟩ := hd
    rw [insertEntry] at h
    split at h
    · simpa using h
    · split at h
      · rcases List.mem_cons.mp h with h | h
        · exact .inl h
        · exact .inr (List.mem_cons_of_mem _ h)
      · rcases List.mem_cons.mp h with h | h
        · exact .inr (h ▸ List.mem_cons_self)
        · exact (ih h).imp id (List.mem_cons_of_mem _)

theorem insertEntry_sorted (name : String) (value : β) {l : List (String × β)}
    (h : l.Pairwise fun a b => a.1 < b.1) :
    (insertEntry name value l).Pairwise fun a b => a.1 < b.1 := by
  induction l with
  | nil => simp [insertEntry]
  | cons hd tl ih =>
    obtain ⟨name', value'⟩ := hd
    obtain ⟨hhd, htl⟩ := List.pairwise_cons.mp h
    rw [insertEntry]
    split
    · next hlt =>
      refine List.pairwise_cons.mpr ⟨fun e he => ?_, h⟩
      rcases List.mem_cons.mp he with rfl | he
      · exact hlt
      · exact String.lt_trans hlt (hhd e he)
    · split
      · next heq =>
        subst heq
        exact List.pairwise_cons.mpr ⟨hhd, htl⟩
      · next hge hne =>
        refine List.pairwise_cons.mpr ⟨fun e he => ?_, ih htl⟩
        rcases mem_insertEntry he with rfl | he
        · exact Std.lt_of_le_of_ne (String.not_lt.mp hge) (Ne.symm hne)
        · exact hhd e he

def empty : Table β := ⟨[], List.Pairwise.nil⟩

instance : Inhabited (Table β) := ⟨empty⟩

/-- The value of a name among the entries. -/
def lookupEntry (name : String) : List (String × β) → Option β
  | [] => none
  | (name', value) :: rest => if name = name' then some value else lookupEntry name rest

def get? (t : Table β) (name : String) : Option β := lookupEntry name t.entries

def contains (t : Table β) (name : String) : Bool := (t.get? name).isSome

/-- Sets the value of a name; an earlier value is replaced. -/
def insert (t : Table β) (name : String) (value : β) : Table β :=
  ⟨insertEntry name value t.entries, insertEntry_sorted name value t.sorted⟩

def erase (t : Table β) (name : String) : Table β :=
  ⟨t.entries.filter (·.1 ≠ name), t.sorted.sublist List.filter_sublist⟩

/-- Inserts the pairs from left to right, so that the last of several with one name counts. -/
def insertAll (t : Table β) (pairs : List (String × β)) : Table β :=
  pairs.foldl (fun t p => t.insert p.1 p.2) t

def size (t : Table β) : Nat := t.entries.length

def names (t : Table β) : List String := t.entries.map Prod.fst

@[simp] theorem get?_empty (name : String) : (empty : Table β).get? name = none := rfl

theorem lookupEntry_insertEntry (name key : String) (value : β) (l : List (String × β)) :
    lookupEntry key (insertEntry name value l) =
      if key = name then some value else lookupEntry key l := by
  induction l with
  | nil => rfl
  | cons hd tl ih =>
    obtain ⟨name', value'⟩ := hd
    rw [insertEntry]
    split
    · rfl
    · split
      · next heq =>
        subst heq
        by_cases h : key = name <;> simp [lookupEntry, h]
      · next hne =>
        by_cases h : key = name
        · subst h
          simp [lookupEntry, hne, ih]
        · simp [lookupEntry, h, ih]

@[simp] theorem get?_insert (t : Table β) (name key : String) (value : β) :
    (t.insert name value).get? key = if key = name then some value else t.get? key :=
  lookupEntry_insertEntry name key value t.entries

theorem lookupEntry_eq_none {name : String} {l : List (String × β)}
    (h : ∀ e ∈ l, name < e.1) : lookupEntry name l = none := by
  induction l with
  | nil => rfl
  | cons hd tl ih =>
    have hne : name ≠ hd.1 := fun heq =>
      String.lt_irrefl name (heq ▸ h hd List.mem_cons_self)
    rw [lookupEntry, if_neg hne]
    exact ih fun e he => h e (List.mem_cons_of_mem _ he)

theorem lookupEntry_cons_self (name : String) (value : β) (l : List (String × β)) :
    lookupEntry name ((name, value) :: l) = some value := if_pos rfl

private theorem head_le {name name' : String} {value value' : β} {l l' : List (String × β)}
    (h : ((name, value) :: l).Pairwise fun a b => a.1 < b.1)
    (heq : ∀ k, lookupEntry k ((name, value) :: l) = lookupEntry k ((name', value') :: l')) :
    ¬ name' < name := by
  intro hlt
  have hnone : lookupEntry name' ((name, value) :: l) = none := by
    apply lookupEntry_eq_none
    intro e he
    rcases List.mem_cons.mp he with rfl | he
    · exact hlt
    · exact String.lt_trans hlt ((List.pairwise_cons.mp h).1 e he)
  rw [heq, lookupEntry_cons_self] at hnone
  cases hnone

theorem entries_ext {l l' : List (String × β)} (h : l.Pairwise fun a b => a.1 < b.1)
    (h' : l'.Pairwise fun a b => a.1 < b.1) (heq : ∀ k, lookupEntry k l = lookupEntry k l') :
    l = l' := by
  induction l generalizing l' with
  | nil =>
    cases l' with
    | nil => rfl
    | cons hd' tl' =>
      have := heq hd'.1
      simp [lookupEntry] at this
  | cons hd tl ih =>
    cases l' with
    | nil =>
      have := heq hd.1
      simp [lookupEntry] at this
    | cons hd' tl' =>
      obtain ⟨name, value⟩ := hd
      obtain ⟨name', value'⟩ := hd'
      have hname : name = name' :=
        String.le_antisymm (String.not_lt.mp (head_le h heq))
          (String.not_lt.mp (head_le h' fun k => (heq k).symm))
      subst hname
      have hvalue : value = value' := by simpa [lookupEntry] using heq name
      subst hvalue
      obtain ⟨hhd, htl⟩ := List.pairwise_cons.mp h
      obtain ⟨hhd', htl'⟩ := List.pairwise_cons.mp h'
      have hrest : tl = tl' := by
        refine ih htl htl' fun k => ?_
        by_cases hk : k = name
        · subst hk
          rw [lookupEntry_eq_none fun e he => hhd e he, lookupEntry_eq_none fun e he => hhd' e he]
        · simpa [lookupEntry, hk] using heq k
      rw [hrest]

/-- Tables with the same look-ups are equal. -/
theorem ext_get? {t t' : Table β} (h : ∀ name, t.get? name = t'.get? name) : t = t' := by
  obtain ⟨l, hl⟩ := t
  obtain ⟨l', hl'⟩ := t'
  have : l = l' := entries_ext hl hl' h
  subst this
  rfl

end Table

end GraphPath
