import GraphPath.Proofs.Conditions

/-!
# Printing and reading path expressions

A selector that is read from a text, printed and read again is the same selector up to
parentheses, whatever the two vocabularies: the printed text has no compact names. The one
restriction is on the values of its literals, since escapes are printed but not read.
-/

namespace GraphPath

def Node.literals : Node → List Literal
  | .iri _ => []
  | .literal l => [l]

mutual

/-- The literals in a selector. -/
def Selector.literals : Selector → List Literal
  | .property _ => []
  | .reverse _ => []
  | .path l r => l.literals ++ r.literals
  | .union l r => l.literals ++ r.literals
  | .intersection l r => l.literals ++ r.literals
  | .recursive inner _ _ => inner.literals
  | .grouping inner => inner.literals
  | .testing s t => s.literals ++ t.literals
  | .function _ args => Selector.allLiterals args
  | .self => []
  | .wildcard => []
  | .constant n => n.literals

def Selector.allLiterals : List Selector → List Literal
  | [] => []
  | s :: rest => s.literals ++ Selector.allLiterals rest

/-- The literals in a test. -/
def Test.literals : Test → List Literal
  | .isA type => type.literals
  | .and l r => l.literals ++ r.literals
  | .or l r => l.literals ++ r.literals
  | .not t => t.literals
  | .comparison _ l r => l.literals ++ r.literals
  | .pathEquality l r => l.literals ++ r.literals
  | .pathExists s => s.literals
  | .language _ => []
  | .datatype _ => []

end

mutual

/-- The selector without the parentheses that it was written with. -/
def Selector.ungrouped : Selector → Selector
  | .property p => .property p
  | .reverse p => .reverse p
  | .path l r => .path l.ungrouped r.ungrouped
  | .union l r => .union l.ungrouped r.ungrouped
  | .intersection l r => .intersection l.ungrouped r.ungrouped
  | .recursive inner min max => .recursive inner.ungrouped min max
  | .grouping inner => inner.ungrouped
  | .testing s t => .testing s.ungrouped t.ungrouped
  | .function name args => .function name (Selector.ungroupedAll args)
  | .self => .self
  | .wildcard => .wildcard
  | .constant n => .constant n

def Selector.ungroupedAll : List Selector → List Selector
  | [] => []
  | s :: rest => s.ungrouped :: Selector.ungroupedAll rest

def Test.ungrouped : Test → Test
  | .isA type => .isA type.ungrouped
  | .and l r => .and l.ungrouped r.ungrouped
  | .or l r => .or l.ungrouped r.ungrouped
  | .not t => .not t.ungrouped
  | .comparison op l r => .comparison op l.ungrouped r.ungrouped
  | .pathEquality l r => .pathEquality l.ungrouped r.ungrouped
  | .pathExists s => .pathExists s.ungrouped
  | .language tag => .language tag
  | .datatype d => .datatype d

end

mutual

private theorem Selector.ungrouped_reread (s : Selector) : s.reread.ungrouped = s.ungrouped := by
  cases s <;> simp only [Selector.reread, Selector.ungrouped]
  case path l r => rw [l.ungrouped_reread, r.ungrouped_reread]
  case union l r => rw [l.ungrouped_reread, r.ungrouped_reread]
  case intersection l r => rw [l.ungrouped_reread, r.ungrouped_reread]
  case recursive inner min max => rw [inner.ungrouped_reread]
  case grouping inner => rw [inner.ungrouped_reread]
  case testing s t => rw [s.ungrouped_reread, t.ungrouped_reread]
  case function name args => rw [Selector.ungroupedAll_rereadAll]

private theorem Selector.ungroupedAll_rereadAll (args : List Selector) :
    Selector.ungroupedAll (Selector.rereadAll args) = Selector.ungroupedAll args := by
  cases args with
  | nil => rfl
  | cons s rest =>
    simp only [Selector.rereadAll, Selector.ungroupedAll]
    rw [s.ungrouped_reread, Selector.ungroupedAll_rereadAll rest]

private theorem Test.ungrouped_reread (t : Test) : t.reread.ungrouped = t.ungrouped := by
  cases t <;> simp only [Test.reread, Test.ungrouped]
  case isA type => rw [type.ungrouped_reread]
  case and l r => rw [l.ungrouped_reread, r.ungrouped_reread]
  case or l r => rw [l.ungrouped_reread, r.ungrouped_reread]
  case not t => rw [t.ungrouped_reread]
  case comparison op l r => rw [l.ungrouped_reread, r.ungrouped_reread]
  case pathEquality l r => rw [l.ungrouped_reread, r.ungrouped_reread]
  case pathExists s => rw [s.ungrouped_reread]

end

variable {P Q : Literal → Prop}

private theorem Node.WellFormed.imp {n : Node} (hn : n.WellFormed P)
    (h : ∀ l ∈ n.literals, P l → Q l) :
    n.WellFormed Q := by
  cases n with
  | iri i => exact hn
  | literal l => exact h l (by simp [Node.literals]) hn

mutual

private theorem Selector.WellFormed.imp {s : Selector} (hs : s.WellFormed P)
    (h : ∀ l ∈ s.literals, P l → Q l) : s.WellFormed Q := by
  cases s <;>
    simp only [Selector.WellFormed, Selector.literals, List.mem_append, or_imp,
      forall_and] at hs h ⊢
  case property p => exact hs
  case reverse p => exact hs
  case path l r => exact ⟨hs.1.imp h.1, hs.2.1.imp h.2, hs.2.2⟩
  case union l r => exact ⟨hs.1.imp h.1, hs.2.imp h.2⟩
  case intersection l r => exact ⟨hs.1.imp h.1, hs.2.imp h.2⟩
  case recursive inner min max => exact ⟨hs.1.imp h, hs.2⟩
  case grouping inner => exact hs.imp h
  case testing s t => exact ⟨hs.1.imp h.1, hs.2.1.imp h.2, hs.2.2⟩
  case function name args => exact ⟨hs.1, hs.2.imp h⟩
  case constant n =>
    obtain ⟨l, rfl, hl⟩ := hs
    exact ⟨l, rfl, h l (by simp [Node.literals]) hl⟩

private theorem Selector.AllWellFormed.imp {args : List Selector}
    (hargs : Selector.AllWellFormed P args) (h : ∀ l ∈ Selector.allLiterals args, P l → Q l) :
    Selector.AllWellFormed Q args := by
  cases args with
  | nil => trivial
  | cons s rest =>
    simp only [Selector.AllWellFormed, Selector.allLiterals, List.mem_append, or_imp,
      forall_and] at hargs h ⊢
    exact ⟨hargs.1.imp h.1, hargs.2.imp h.2⟩

private theorem Test.WellFormed.imp {t : Test} (ht : t.WellFormed P)
    (h : ∀ l ∈ t.literals, P l → Q l) :
    t.WellFormed Q := by
  cases t <;>
    simp only [Test.WellFormed, Test.literals, List.mem_append, or_imp, forall_and] at ht h ⊢
  case isA type =>
    obtain ⟨n, rfl, hn⟩ := ht
    exact ⟨n, rfl, hn.imp h⟩
  case and l r => exact ⟨ht.1.imp h.1, ht.2.imp h.2⟩
  case or l r => exact ⟨ht.1.imp h.1, ht.2.imp h.2⟩
  case not t => exact ht.imp h
  case comparison op l r => exact ⟨ht.1.imp h.1, ht.2.1.imp h.2, ht.2.2⟩
  case pathEquality l r =>
    obtain ⟨hl, n, rfl, hn⟩ := ht
    exact ⟨hl.imp h.1, n, rfl, hn.imp h.2⟩
  case pathExists s => exact ht.imp h
  case language tag => exact ht
  case datatype d => exact ht

end

/-- A well-formed selector whose literals are legible is read from its printed text, in
parentheses where it is a union or an intersection. -/
theorem Selector.parse_render (v : Vocabulary) {s : Selector}
    (hs : s.WellFormed Literal.Legible) : Selector.parse v s.render = .ok s.reread := by
  have hlevels := Parser.readsInner v s.size
  have hread := Parser.outcome_selectorLevel v hlevels hs (Nat.le_refl _) (k := [])
    ⟨Parser.endsStep_nil, by simp [Text.skipBlanks]⟩
  have hblank := (s.opens hs []).skipBlanks
  rw [List.append_nil] at hread hblank
  rw [Selector.parse_eq_ok_iff, Parser.outcome_padded, hblank]
  change (Parser.outcome (Parser.selectorLevel v _ _) _).map _ = _
  rw [← Selector.size, hread]
  rfl

/-- What was read from a text and has no literal with an escape in it is printed as a text that
any vocabulary, also an empty one, reads as the same selector up to parentheses. -/
theorem Selector.parse_render_of_parse {v : Vocabulary} {text : String} {s : Selector}
    (hparse : Selector.parse v text = .ok s) (hliterals : ∀ l ∈ s.literals, l.Unescaped)
    (v' : Vocabulary) :
    ∃ s', Selector.parse v' s.render = .ok s' ∧ s'.ungrouped = s.ungrouped := by
  have hcanonical := Selector.wellFormed_of_parse hparse
  have hlegible : s.WellFormed Literal.Legible :=
    hcanonical.imp fun l hl hcanon => ⟨hcanon, hliterals l hl⟩
  exact ⟨s.reread, Selector.parse_render v' hlegible, s.ungrouped_reread⟩

theorem Selector.parse_render_of_parse_nested :
    let text :=
      "(oa:hasBody|^oa:hasTarget)+[not (is-a oa:Tag or @en) & . = 'a']/fn:first(*, (oa:x))"
    let s : Selector := .path
      (.testing
        (.recursive (.union (.property ⟨"http://www.w3.org/ns/oa#hasBody"⟩)
          (.reverse ⟨"http://www.w3.org/ns/oa#hasTarget"⟩)) 1 none)
        (.and
          (.not (.or (.isA (.constant (.iri ⟨"http://www.w3.org/ns/oa#Tag"⟩))) (.language "en")))
          (.comparison .eq .self (.constant (.literal (.plain "a"))))))
      (.function "first" [.wildcard, .grouping (.property ⟨"http://www.w3.org/ns/oa#x"⟩)])
    Selector.parse Vocabulary.common text = .ok s ∧ (∀ l ∈ s.literals, l.Unescaped) ∧
      ∃ s', Selector.parse Table.empty s.render = .ok s' ∧ s'.ungrouped = s.ungrouped := by
  intro text s
  have hparse : Selector.parse Vocabulary.common text = .ok s := by decide +kernel
  have hliterals : ∀ l ∈ s.literals, l.Unescaped := by decide +kernel
  exact ⟨hparse, hliterals, Selector.parse_render_of_parse hparse hliterals Table.empty⟩

end GraphPath
