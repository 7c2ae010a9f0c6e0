import GraphPath.Proofs.Freshness
import Mathlib.Data.List.Nodup

/-!
# The search for fresh variables

A fresh variable is searched for in rounds: each takes the next number, and the first number whose
variable is not the root ends the search. Different numbers give different variables, so all the
searches from one allocator together pass over one number at most, and the counter, a machine word,
does not overflow before its values are used up. Settings that pass validation have no number to
pass over: the variables are those of all numbers in their order.
-/

namespace GraphPath

namespace Settings

private theorem dropStem_append (stem rest : List Char) :
    dropStem stem (stem ++ rest) = some rest := by
  induction stem with
  | nil => rfl
  | cons c stem ih => simpa [dropStem] using ih

private theorem looksFresh_append_toString (stem : String) (n : Nat) :
    looksFresh stem (stem ++ toString n) = true := by
  have hall : (Nat.toDigits 10 n).all Char.isDigit = true := by
    rw [List.all_eq_true]
    intro c hc
    exact Nat.isDigit_of_mem_toDigits (by decide) (by decide) hc
  simp [looksFresh, dropStem_append, hall, Nat.toDigits_ne_nil]

private theorem looksFresh_of_validate {s : Settings} (h : s.validate = .ok ()) :
    looksFresh s.variableStem s.resultVariable = false := by
  obtain ⟨_, -, hstem⟩ := exists_of_bind_ok h
  obtain ⟨_, -, hcollision⟩ := exists_of_bind_ok hstem
  cases hfresh : looksFresh s.variableStem s.resultVariable with
  | false => rfl
  | true =>
    rw [hfresh] at hcollision
    cases hcollision

end Settings

namespace Allocator

/-- The rounds of a search. A round counts on, for which the counter must have room, and ends the
search with the variable of the number it took, unless that is the root. -/
inductive Search : Allocator → Variable → Allocator → Prop
  | found {a : Allocator} (room : a.next + 1 < UInt64.size)
      (differs : a.numbered a.next ≠ a.root) :
      Search a (a.numbered a.next) { a with next := a.next + 1 }
  | again {a a' : Allocator} {v : Variable} (room : a.next + 1 < UInt64.size)
      (collides : a.numbered a.next = a.root) (rest : Search { a with next := a.next + 1 } v a') :
      Search a v a'

/-- Searches one after the other, each from the allocator that the one before left. -/
inductive Searches : Allocator → List Variable → Allocator → Prop
  | nil (a : Allocator) : Searches a [] a
  | cons {a a' a'' : Allocator} {v : Variable} {vars : List Variable} (head : Search a v a')
      (tail : Searches a' vars a'') : Searches a (v :: vars) a''

/-- No number that is still to be taken is that of the root. -/
def Clear (a : Allocator) : Prop := ∀ n, a.next ≤ n → a.numbered n ≠ a.root

variable {a : Allocator}

private theorem clear_of_passed {n : Nat} (hn : n < a.next) (hroot : a.numbered n = a.root) :
    a.Clear := by
  intro m hm heq
  have := a.numbered_injective (heq.trans hroot.symm)
  omega

private theorem fresh_of_ne (h : a.numbered a.next ≠ a.root) :
    a.fresh = (a.numbered a.next, { a with next := a.next + 1 }) := if_neg h

private theorem fresh_of_eq (h : a.numbered a.next = a.root) :
    a.fresh = (a.numbered (a.next + 1), { a with next := a.next + 2 }) := if_pos h

/-- The search ends, unless the counter overflows, and a second round is the last. -/
theorem search_iff {a' : Allocator} {v : Variable} :
    Search a v a' ↔ a.fresh = (v, a') ∧ a'.next < UInt64.size := by
  constructor
  · intro h
    cases h with
    | found room differs => exact ⟨fresh_of_ne differs, room⟩
    | again room collides rest =>
      cases rest with
      | found room' differs' => exact ⟨fresh_of_eq collides, room'⟩
      | again room' collides' rest' =>
        have hsucc : a.next + 1 = a.next := a.numbered_injective (collides'.trans collides.symm)
        omega
  · rintro ⟨hfresh, hroom⟩
    by_cases hroot : a.numbered a.next = a.root
    · rw [fresh_of_eq hroot] at hfresh
      cases hfresh
      have hnext : a.numbered (a.next + 1) ≠ a.root := fun heq => by
        have := a.numbered_injective (heq.trans hroot.symm)
        omega
      have hroom' : a.next + 2 < UInt64.size := hroom
      exact .again (by omega) hroot (.found hroom' hnext)
    · rw [fresh_of_ne hroot] at hfresh
      cases hfresh
      exact .found hroom hroot

private theorem freshes_succ (a : Allocator) (k : Nat) :
    a.freshes (k + 1) = (a.fresh.1 :: (a.fresh.2.freshes k).1, (a.fresh.2.freshes k).2) := rfl

theorem freshes_succ_snd (a : Allocator) (k : Nat) :
    (a.freshes (k + 1)).2 = (a.fresh.2.freshes k).2 := rfl

private theorem freshes_eq_map_nth (a : Allocator) (k : Nat) :
    (a.freshes k).1 = (List.range k).map a.nth := by
  induction k generalizing a with
  | zero => rfl
  | succ k ih =>
    rw [freshes_succ, ih, List.range_succ_eq_map, List.map_cons, List.map_map]
    rfl

private theorem nodup_freshes (a : Allocator) (k : Nat) : (a.freshes k).1.Nodup := by
  rw [freshes_eq_map_nth]
  exact List.nodup_range.map fun i j h => a.nth_injective h

private theorem root_not_mem_freshes (a : Allocator) (k : Nat) : a.root ∉ (a.freshes k).1 := by
  rw [freshes_eq_map_nth, List.mem_map]
  rintro ⟨i, -, hi⟩
  exact a.root_not_pending ⟨i, hi.symm⟩

theorem freshes_of_clear (h : a.Clear) (k : Nat) :
    a.freshes k = ((List.range' a.next k).map a.numbered, { a with next := a.next + k }) := by
  induction k generalizing a with
  | zero => rfl
  | succ k ih =>
    have hclear : Clear { a with next := a.next + 1 } := fun n hn => h n (Nat.le_of_succ_le hn)
    rw [freshes_succ, fresh_of_ne (h a.next (Nat.le_refl _)), ih hclear, List.range'_succ,
      List.map_cons, Nat.add_right_comm]
    rfl

private theorem next_le_freshes (a : Allocator) (k : Nat) : a.next ≤ (a.freshes k).2.next := by
  induction k generalizing a with
  | zero => exact Nat.le_refl _
  | succ k ih =>
    obtain ⟨n, hle, -, hlt, -⟩ := a.fresh_spec
    have hrest := ih a.fresh.2
    rw [freshes_succ_snd]
    omega

private theorem next_freshes_le (a : Allocator) (k : Nat) :
    (a.freshes k).2.next ≤ a.next + k + 1 := by
  induction k generalizing a with
  | zero => exact Nat.le_succ _
  | succ k ih =>
    rw [freshes_succ_snd]
    by_cases hroot : a.numbered a.next = a.root
    · have hclear : Clear { a with next := a.next + 2 } :=
        clear_of_passed (n := a.next) (Nat.lt_add_of_pos_right (by decide)) hroot
      rw [fresh_of_eq hroot, freshes_of_clear hclear]
      change a.next + 2 + k ≤ _
      omega
    · have hrest := ih a.fresh.2
      rw [fresh_of_ne hroot] at hrest ⊢
      change _ ≤ a.next + 1 + k + 1 at hrest
      omega

theorem searches_freshes (a : Allocator) (k : Nat) (hroom : (a.freshes k).2.next < UInt64.size) :
    Searches a (a.freshes k).1 (a.freshes k).2 := by
  induction k generalizing a with
  | zero => exact .nil a
  | succ k ih =>
    have hhead : Search a a.fresh.1 a.fresh.2 :=
      search_iff.2 ⟨rfl, Nat.lt_of_le_of_lt (a.fresh.2.next_le_freshes k) hroom⟩
    exact .cons hhead (ih a.fresh.2 hroom)

theorem clear_of_validate {s : Settings} (h : s.validate = .ok ()) : (ofSettings s).Clear := by
  intro n _ heq
  have hname : s.variableStem ++ toString n = s.resultVariable := congrArg Variable.name heq
  have hfresh := Settings.looksFresh_append_toString s.variableStem n
  rw [hname, Settings.looksFresh_of_validate h] at hfresh
  cases hfresh

/-- Whatever the names in the settings, every search ends as long as the numbers of the counter
suffice, and the variables are different from each other and from the root. If the settings are
valid, they are the stem with the numbers from zero, and the counter tells how many there are. -/
theorem fresh_variables (s : Settings) :
    (∀ k < UInt64.size - 1, ∃ vars a, (ofSettings s).freshes k = (vars, a) ∧
      Searches (ofSettings s) vars a ∧ vars.length = k ∧ vars.Nodup ∧
        ⟨s.resultVariable⟩ ∉ vars) ∧
    (s.validate = .ok () → ∀ k, (ofSettings s).freshes k =
      ((List.range k).map fun i => ⟨s.variableStem ++ toString i⟩,
        ⟨s.variableStem, ⟨s.resultVariable⟩, k⟩)) := by
  constructor
  · intro k hk
    refine ⟨_, _, rfl, ?_, ?_, nodup_freshes _ k, root_not_mem_freshes _ k⟩
    · apply searches_freshes
      have hnext := next_freshes_le (ofSettings s) k
      have hstart : (ofSettings s).next = 0 := rfl
      omega
    · rw [freshes_eq_map_nth, List.length_map, List.length_range]
  · intro hvalid k
    have hcounter : (ofSettings s).next + k = k := Nat.zero_add k
    rw [freshes_of_clear (clear_of_validate hvalid), hcounter, List.range_eq_range']
    rfl

/-- With a stem that ends in a digit, the stem itself is allowed as the root. A root that is the
stem with a number is refused, and passed over where nobody asks. -/
theorem fresh_variables_digit_stem :
    let valid : Settings := { resultVariable := "v1", variableStem := "v1" }
    let colliding : Settings := { resultVariable := "v11", variableStem := "v1" }
    valid.validate = .ok () ∧
    (ofSettings valid).freshes 3 = ([⟨"v10"⟩, ⟨"v11"⟩, ⟨"v12"⟩], ⟨"v1", ⟨"v1"⟩, 3⟩) ∧
    colliding.validate = .error (.collision "v11" "v1") ∧
    (ofSettings colliding).freshes 3 = ([⟨"v10"⟩, ⟨"v12"⟩, ⟨"v13"⟩], ⟨"v1", ⟨"v11"⟩, 4⟩) ∧
    Searches (ofSettings colliding) [⟨"v10"⟩, ⟨"v12"⟩, ⟨"v13"⟩] ⟨"v1", ⟨"v11"⟩, 4⟩ := by
  intro valid colliding
  have hvalid : valid.validate = .ok () := by decide +kernel
  have hcolliding : (ofSettings colliding).freshes 3 =
      ([⟨"v10"⟩, ⟨"v12"⟩, ⟨"v13"⟩], ⟨"v1", ⟨"v11"⟩, 4⟩) := by decide +kernel
  obtain ⟨vars, a, hfreshes, hsearches, -⟩ := (fresh_variables colliding).1 3 (by decide)
  obtain ⟨rfl, rfl⟩ := Prod.mk.inj (hcolliding.symm.trans hfreshes)
  refine ⟨hvalid, ?_, by decide +kernel, hcolliding, hsearches⟩
  exact ((fresh_variables valid).2 hvalid 3).trans (by decide +kernel)

end Allocator

end GraphPath
