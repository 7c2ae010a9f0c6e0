import GraphPath.Proofs.Spelling
import GraphPath.Proofs.Verdicts

/-!
# Language ranges

A tag is divided by hyphens into subtags, some of which may be empty. A range covers the tags that
start with its subtags, in whatever case the letters are; the range `*` covers every tag but the
empty one. Comparing the texts, and then the text of the range with a hyphen behind it, comes to the
same as comparing the subtags one by one.
-/

namespace GraphPath

open Emit Compile

private theorem intercalate_append_of_ne_nil {α : Type} (sep : List α) {parts rest : List (List α)}
    (hparts : parts ≠ []) (hrest : rest ≠ []) :
    sep.intercalate (parts ++ rest) = sep.intercalate parts ++ sep ++ sep.intercalate rest := by
  induction parts with
  | nil => exact absurd rfl hparts
  | cons part parts ih =>
    rw [List.cons_append, List.intercalate_cons_of_ne_nil (by simp [hrest])]
    by_cases hnil : parts = []
    · simp [hnil]
    · simp [ih hnil, List.intercalate_cons_of_ne_nil hnil]

section

variable {α : Type} [BEq α] [LawfulBEq α]

/-- The parts of a text come first among those of another exactly if the texts are equal or a
separator follows the one in the other. -/
theorem splitOn_isPrefix_iff (x : α) (s t : List α) :
    s.splitOn x <+: t.splitOn x ↔ t = s ∨ s ++ [x] <+: t := by
  constructor
  · rintro ⟨rest, hrest⟩
    have hjoined : [x].intercalate (s.splitOn x ++ rest) = t := by
      rw [hrest, List.intercalate_splitOn]
    by_cases hnil : rest = []
    · rw [hnil, List.append_nil, List.intercalate_splitOn] at hjoined
      exact .inl hjoined.symm
    · rw [intercalate_append_of_ne_nil [x] (List.splitOn_ne_nil x s) hnil,
        List.intercalate_splitOn] at hjoined
      exact .inr ⟨_, hjoined⟩
  · rintro (rfl | ⟨rest, rfl⟩)
    · exact List.prefix_refl _
    · refine ⟨rest.splitOn x, ?_⟩
      rw [List.append_assoc, List.singleton_append, List.splitOn_append_cons_self]

private theorem splitOn_map {x : α} {f : α → α} (hf : ∀ c, f c = x ↔ c = x) (s : List α) :
    (s.map f).splitOn x = (s.splitOn x).map (List.map f) := by
  induction s with
  | nil => simp
  | cons c s ih =>
    rw [List.map_cons, List.splitOn_cons_eq_if_modifyHead, List.splitOn_cons_eq_if_modifyHead, ih]
    by_cases hc : c = x
    · simp [hc, (hf x).2 rfl]
    · cases List.splitOn x s <;> simp [hc, hf]

end

namespace Language

/-- The parts of a tag or a range between its hyphens. -/
def subtags (s : String) : List (List Char) := s.toList.splitOn '-'

/-- The subtags with small letters for the capital ones. -/
def folded (s : String) : List (List Char) := (subtags s).map (List.map Char.toLower)

/-- Whether a tag is within a range. -/
def Covers (range tag : String) : Prop :=
  range = "*" ∧ tag ≠ "" ∨ range ≠ "*" ∧ folded range <+: folded tag

instance (range tag : String) : Decidable (Covers range tag) :=
  inferInstanceAs (Decidable (_ ∨ _))

private theorem folded_eq_splitOn (s : String) :
    folded s = (s.toList.map Char.toLower).splitOn '-' :=
  (splitOn_map (fun _ => Text.toLower_eq_iff (by decide)) s.toList).symm

private theorem map_toLower_eq_star_iff (s : String) :
    s.toList.map Char.toLower = ['*'] ↔ s = "*" := by
  have hstar : "*" = String.ofList ['*'] := rfl
  rw [List.map_eq_singleton_iff, hstar, ← String.toList_inj, String.toList_ofList]
  constructor
  · rintro ⟨c, hs, hc⟩
    rw [hs, (Text.toLower_eq_iff (by decide)).1 hc]
  · intro hs
    exact ⟨'*', hs, by decide⟩

private theorem languageMatches_eq_decide (tag range : String) :
    languageMatches tag range = decide (Covers range tag) := by
  rw [Bool.eq_iff_iff, decide_eq_true_iff]
  unfold languageMatches Covers
  by_cases hrange : range = "*"
  · simp [hrange]
  · have hstar : range.toList.map Char.toLower ≠ ['*'] := fun h =>
      hrange ((map_toLower_eq_star_iff range).1 h)
    simp [hstar, hrange, folded_eq_splitOn, splitOn_isPrefix_iff]

end Language

/-- Matching a language range has a value for any two literals, and it is true exactly if the range
covers the tag. -/
theorem Builtin.apply_langMatches (tag range : Literal) (others : List Node) :
    Builtin.langMatches.apply (.literal tag :: .literal range :: others) =
      some (.boolean (decide (Language.Covers range.value tag.value))) := by
  rw [apply, Language.languageMatches_eq_decide]

-- The beginning of a subtag is no subtag, and an empty one counts like any other.
example : Language.Covers "En-" "eN--x" ∧ ¬ Language.Covers "en-g" "en-GB" ∧
    Language.Covers "" "-en" ∧ ¬ Language.Covers "" "en" := by decide +kernel

private theorem truth?_languageCondition_literal (D : List Quad) (range : String)
    {context : Variable} {r : Row} {l : Literal} (hr : r.value? context = some (.literal l)) :
    truth? (Expr.value? D (languageCondition range context) r) =
      some (decide (Language.Covers range (l.language.getD ""))) := by
  simp only [languageCondition, Expr.value?, Expr.values?, Expr.var, Expr.literal, Term.literal,
    Term.value?, hr, Builtin.apply, Node.plain, Literal.plain, Option.bind_some, Option.map_some,
    Language.languageMatches_eq_decide]
  exact truth?_ofTruth (some _)

/-- A language test asks whether the range covers the tag of a literal; a literal without a language
has the empty tag. -/
theorem Test.verdict_language (D : List Quad) (limits : RecursionLimits) (range : String)
    (l : Literal) : (Test.language range).verdict D limits (some (.literal l)) =
      some (decide (Language.Covers range (l.language.getD ""))) := by
  let a := Allocator.ofSettings {}
  have hcompiled : enclosed (test .builtin limits (.language range) a.root) a =
      .ok ⟨languageCondition range a.root, [], a⟩ := rfl
  have hroot : (Row.single a.root (some (.literal l))).value? a.root = some (.literal l) := by
    rw [Row.value?_single, if_pos rfl]
  rw [Test.verdict, hcompiled]
  exact truth?_languageCondition_literal D range hroot

end GraphPath
