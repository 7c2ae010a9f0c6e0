import GraphPath.Parser.Token
import Mathlib.Data.List.Basic

/-!
# Outcomes of parsers

What a parser reads and what it leaves, without the failures it reports: each combinator is a
function of the outcomes of its parts.
-/

namespace GraphPath.Parser

variable {α β : Type}

/-- The value that the parser reads and the text behind it. -/
def outcome (p : Parser α) (s : List Char) : Option (α × List Char) :=
  (p s).result.map fun r => (r.value, r.rest)

@[simp]
theorem outcome_pure (a : α) (s : List Char) : outcome (pure a) s = some (a, s) := rfl

@[simp]
theorem outcome_succeed (a : α) (s : List Char) : outcome (succeed a) s = some (a, s) := rfl

@[simp]
theorem outcome_fail (s : List Char) : outcome (fail : Parser α) s = none := rfl

@[simp]
theorem outcome_bind (p : Parser α) (f : α → Parser β) (s : List Char) :
    outcome (p >>= f) s = (outcome p s).bind fun x => outcome (f x.1) x.2 := by
  change outcome (andThen p f) s = _
  unfold outcome andThen
  cases p s with
  | mk result failure =>
    cases result with
    | none => rfl
    | some r => simp [Reading.after, Function.comp_def]

@[simp]
theorem outcome_map (f : α → β) (p : Parser α) (s : List Char) :
    outcome (f <$> p) s = (outcome p s).map fun x => (f x.1, x.2) := by
  rw [map_eq_pure_bind, outcome_bind]
  cases outcome p s <;> rfl

@[simp]
theorem outcome_either (p q : Parser α) (s : List Char) :
    outcome (either p q) s = (outcome p s).or (outcome q s) := by
  unfold outcome either
  cases p s with
  | mk result failure => cases result <;> rfl

@[simp]
theorem outcome_firstOf_nil (s : List Char) : outcome (firstOf [] : Parser α) s = none := rfl

@[simp]
theorem outcome_firstOf_cons (p : Parser α) (rest : List (Parser α)) (s : List Char) :
    outcome (firstOf (p :: rest)) s = (outcome p s).or (outcome (firstOf rest) s) :=
  outcome_either p (firstOf rest) s

@[simp]
theorem outcome_optional (p : Parser α) (s : List Char) :
    outcome (optional p) s =
      ((outcome p s).map fun x => (some x.1, x.2)).or (some (none, s)) := by
  simp [optional]

@[simp]
theorem outcome_satisfy_nil (accepts : Char → Bool) : outcome (satisfy accepts) [] = none := rfl

@[simp]
theorem outcome_satisfy_cons (accepts : Char → Bool) (c : Char) (s : List Char) :
    outcome (satisfy accepts) (c :: s) = if accepts c then some (c, s) else none := by
  by_cases h : accepts c <;> simp [outcome, satisfy, h]

@[simp]
theorem outcome_char_nil (c : Char) : outcome (char c) [] = none := by simp [char]

@[simp]
theorem outcome_char_cons (c d : Char) (s : List Char) :
    outcome (char c) (d :: s) = if d = c then some ((), s) else none := by
  by_cases h : d = c <;> simp [char, h]

@[simp]
theorem outcome_chars_nil (s : List Char) : outcome (chars []) s = some ((), s) := rfl

@[simp]
theorem outcome_chars_cons (c : Char) (cs s : List Char) :
    outcome (chars (c :: cs)) s = (outcome (char c) s).bind fun x => outcome (chars cs) x.2 := by
  simp [chars]

@[simp]
theorem outcome_span (accepts : Char → Bool) (s : List Char) :
    outcome (span accepts) s = some (s.takeWhile accepts, s.dropWhile accepts) := rfl

@[simp]
theorem outcome_span1 (accepts : Char → Bool) (s : List Char) :
    outcome (span1 accepts) s =
      if s.takeWhile accepts = [] then none
      else some (s.takeWhile accepts, s.dropWhile accepts) := by
  unfold outcome span1 span
  cases s.takeWhile accepts <;> simp

@[simp]
theorem outcome_skipBlanks (s : List Char) :
    outcome skipBlanks s = some ((), Text.skipBlanks s) := rfl

@[simp]
theorem outcome_padded (p : Parser α) (s : List Char) :
    outcome (padded p) s =
      (outcome p (Text.skipBlanks s)).map fun x => (x.1, Text.skipBlanks x.2) := by
  simp only [padded, outcome_bind, outcome_skipBlanks, Option.bind_some, outcome_pure]
  cases outcome p (Text.skipBlanks s) <;> rfl

@[simp]
theorem outcome_lexeme (p : Parser α) (s : List Char) : outcome (lexeme p) s = outcome p s := rfl

@[simp]
theorem outcome_checked (f : α → Except Reason β) (p : Parser α) (s : List Char) :
    outcome (checked f p) s =
      (outcome p s).bind fun x => (f x.1).toOption.map fun b => (b, x.2) := by
  unfold outcome checked
  cases p s with
  | mk result failure =>
    cases result with
    | none => rfl
    | some r =>
      simp only [Option.map_some, Option.bind_some]
      cases f r.value <;> rfl

@[simp]
theorem outcome_atEnd (s : List Char) :
    outcome atEnd s = if s = [] then some ((), []) else none := by
  cases s <;> rfl

theorem run_eq_ok_iff {p : Parser α} {s : List Char} {a : α} :
    run p s = .ok a ↔ outcome p s = some (a, []) := by
  have hrun : run p s = .ok a ↔ ∃ k, outcome (do let a ← p; atEnd; return a) s = some (a, k) := by
    unfold run outcome
    dsimp only
    generalize (do let a ← p; atEnd; return a : Parser α) s = reply
    cases hresult : reply.result <;> simp
  rw [hrun, outcome_bind]
  cases outcome p s with
  | none => simp
  | some x =>
    obtain ⟨b, k⟩ := x
    cases k <;> simp

/-! ## Repetitions -/

/-- Rounds of a parser one after the other, each from where the one before ended. -/
inductive Chain (p : Parser α) : List Char → List α → List Char → Prop
  | nil (k : List Char) : Chain p k [] k
  | cons {s s' k : List Char} {a : α} {as : List α} (head : outcome p s = some (a, s'))
      (tail : Chain p s' as k) : Chain p s (a :: as) k

private theorem chain_of_rounds {p : Parser α} {fuel s k : List Char} {as : List α}
    (h : outcome (rounds p fuel) s = some (as, k)) : Chain p s as k := by
  induction fuel generalizing s as with
  | nil =>
    simp only [rounds, outcome_either, outcome_bind, outcome_pure, outcome_succeed] at h
    cases hp : outcome p s with
    | none =>
      simp [hp] at h
      obtain ⟨rfl, rfl⟩ := h
      exact .nil s
    | some x =>
      simp [hp] at h
      obtain ⟨rfl, rfl⟩ := h
      exact .cons hp (.nil _)
  | cons c fuel ih =>
    simp only [rounds, outcome_either, outcome_bind, outcome_pure, outcome_succeed] at h
    cases hp : outcome p s with
    | none =>
      simp [hp] at h
      obtain ⟨rfl, rfl⟩ := h
      exact .nil s
    | some x =>
      cases hmore : outcome (rounds p fuel) x.2 with
      | none =>
        simp [hp, hmore] at h
        obtain ⟨rfl, rfl⟩ := h
        exact .nil s
      | some y =>
        simp [hp, hmore] at h
        obtain ⟨rfl, rfl⟩ := h
        exact .cons hp (ih hmore)

theorem chain_of_many {p : Parser α} {s k : List Char} {as : List α}
    (h : outcome (many p) s = some (as, k)) : Chain p s as k := chain_of_rounds h

private theorem Chain.outcome_rounds {p : Parser α} {fuel s k : List Char} {as : List α}
    (h : Chain p s as k) (hstop : outcome p k = none) (hfuel : as.length ≤ fuel.length) :
    outcome (rounds p fuel) s = some (as, k) := by
  induction h generalizing fuel with
  | nil k => cases fuel <;> simp [rounds, hstop]
  | cons head tail ih =>
    cases fuel with
    | nil => simp at hfuel
    | cons c fuel =>
      have htail := ih hstop (by simpa using hfuel)
      simp [rounds, head, htail]

theorem Chain.outcome_many {p : Parser α} {s k : List Char} {as : List α}
    (h : Chain p s as k) (hstop : outcome p k = none) (hfuel : as.length ≤ s.length) :
    outcome (many p) s = some (as, k) := h.outcome_rounds hstop hfuel

private theorem Chain.snoc {p : Parser α} {s k l : List Char} {as : List α} {a : α}
    (h : Chain p s as k) (last : outcome p k = some (a, l)) : Chain p s (as ++ [a]) l := by
  induction h with
  | nil k => exact .cons last (.nil l)
  | cons head tail ih => exact .cons head (ih last)

/-- A first value and further ones, joined to the left as they are read. -/
inductive Folds (first : Parser α) (next : Parser β) (join : α → β → α) (s : List Char) :
    α → List Char → Prop
  | start {a : α} {k : List Char} (h : outcome first s = some (a, k)) :
    Folds first next join s a k
  | step {a : α} {b : β} {k l : List Char} (before : Folds first next join s a k)
    (h : outcome next k = some (b, l)) (shorter : l.length < k.length) :
    Folds first next join s (join a b) l

theorem Folds.outcome {first : Parser α} {next : Parser β} {join : α → β → α} {s k : List Char}
    {a : α} (h : Folds first next join s a k) (hstop : outcome next k = none) :
    outcome (do let a ← first; let rest ← many next; return rest.foldl join a) s =
      some (a, k) := by
  have hchain : ∃ a₀ s' bs, Parser.outcome first s = some (a₀, s') ∧ Chain next s' bs k ∧
      bs.length + k.length ≤ s'.length ∧ bs.foldl join a₀ = a := by
    clear hstop
    induction h with
    | start h => exact ⟨_, _, [], h, .nil _, by simp, rfl⟩
    | step before h shorter ih =>
      obtain ⟨a₀, s', bs, hfirst, hrounds, hlength, rfl⟩ := ih
      refine ⟨a₀, s', bs ++ [_], hfirst, hrounds.snoc h, ?_, by rw [List.foldl_concat]⟩
      rw [List.length_append, List.length_singleton]
      omega
  obtain ⟨a₀, s', bs, hfirst, hrounds, hlength, rfl⟩ := hchain
  have hmany := hrounds.outcome_many hstop (by omega)
  simp [hfirst, hmany]

end GraphPath.Parser
