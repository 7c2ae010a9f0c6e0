import GraphPath.Proofs.Words

/-!
# Printed path expressions are read back

Reading the printed text of a well-formed selector gives the selector with parentheses around its
unions and intersections. The grammar reads the parts between brackets with one level of nesting
less, so the argument goes by levels: parsers that read back all texts shorter than `n` at one
level make parsers that read back all texts of length `n` at the next.
-/

namespace GraphPath

mutual

/-- The selector that the printed text stands for: unions and intersections are printed in
parentheses. -/
def Selector.reread : Selector → Selector
  | .property p => .property p
  | .reverse p => .reverse p
  | .path l r => .path l.reread r.reread
  | .union l r => .grouping (.union l.reread r.reread)
  | .intersection l r => .grouping (.intersection l.reread r.reread)
  | .recursive inner min max => .recursive inner.reread min max
  | .grouping inner => .grouping inner.reread
  | .testing s t => .testing s.reread t.reread
  | .function name args => .function name (Selector.rereadAll args)
  | .self => .self
  | .wildcard => .wildcard
  | .constant n => .constant n

def Selector.rereadAll : List Selector → List Selector
  | [] => []
  | s :: rest => s.reread :: Selector.rereadAll rest

def Test.reread : Test → Test
  | .isA type => .isA type.reread
  | .and l r => .and l.reread r.reread
  | .or l r => .or l.reread r.reread
  | .not t => .not t.reread
  | .comparison op l r => .comparison op l.reread r.reread
  | .pathEquality l r => .pathEquality l.reread r.reread
  | .pathExists s => .pathExists s.reread
  | .language tag => .language tag
  | .datatype d => .datatype d

end

private theorem Selector.rereadAll_eq_map (args : List Selector) :
    Selector.rereadAll args = args.map Selector.reread := by
  induction args with
  | nil => rfl
  | cons s rest ih => simp only [Selector.rereadAll, ih, List.map_cons]

namespace Parser

/-- The ways in which the text of a selector starts. -/
inductive Opens : List Char → Prop
  | mark {c : Char} (h : c ∈ ['<', '(', '.', '*', '"']) (s : List Char) : Opens (c :: s)
  | reverse (s : List Char) : Opens ('^' :: '<' :: s)
  | call (s : List Char) : Opens ('f' :: 'n' :: ':' :: s)

theorem Opens.skipBlanks {s : List Char} (h : Opens s) : Text.skipBlanks s = s := by
  cases h with
  | mark hc s =>
    simp only [List.mem_cons, List.not_mem_nil, or_false] at hc
    rcases hc with rfl | rfl | rfl | rfl | rfl <;> simp +decide [skipBlanks_cons]
  | reverse s => simp +decide [skipBlanks_cons]
  | call s => simp +decide [skipBlanks_cons]

end Parser

theorem Selector.opens {ok : Literal → Prop} {s : Selector} (hs : s.WellFormed ok)
    (k : List Char) : Parser.Opens (s.render.toList ++ k) := by
  cases s with
  | property p =>
    rw [Selector.WellFormed] at hs
    simpa [Selector.render, hs.toList_render] using Parser.Opens.mark (by decide) _
  | reverse p =>
    rw [Selector.WellFormed] at hs
    simpa [Selector.render, hs.toList_render] using Parser.Opens.reverse _
  | path l r =>
    rw [Selector.WellFormed] at hs
    have hl := Selector.opens hs.1 ("/".toList ++ (r.render.toList ++ k))
    simpa [Selector.render] using hl
  | testing s t =>
    rw [Selector.WellFormed] at hs
    have hl := Selector.opens hs.1 ("[".toList ++ (t.render.toList ++ ("]".toList ++ k)))
    simpa [Selector.render] using hl
  | constant n =>
    obtain ⟨l, rfl, -⟩ := hs
    simpa [Selector.render, Node.render, Literal.toList_render] using
      Parser.Opens.mark (by decide) _
  | function name args => simpa [Selector.render] using Parser.Opens.call _
  | _ => simpa [Selector.render] using Parser.Opens.mark (by decide) _

namespace Parser

variable {α : Type}

theorem outcome_leftAssoc_single {join : α → α → α} {operator : Parser Unit} {operand : Parser α}
    {s k : List Char} {a : α} (ha : outcome operand s = some (a, k))
    (hstop : outcome operator (Text.skipBlanks k) = none) :
    outcome (leftAssoc join operator operand) s = some (a, k) := by
  apply (Folds.start ha).outcome
  simp [hstop]

theorem outcome_leftAssoc_pair {join : α → α → α} {operator : Parser Unit} {operand : Parser α}
    {s k k' l : List Char} {a b : α} (ha : outcome operand s = some (a, k))
    (hoperator : outcome (padded operator) k = some ((), k'))
    (hb : outcome operand k' = some (b, l)) (hshorter : l.length < k.length)
    (hstop : outcome operator (Text.skipBlanks l) = none) :
    outcome (leftAssoc join operator operand) s = some (join a b, l) := by
  have hnext : outcome (do padded operator; operand) k = some (b, l) := by
    rw [outcome_bind, hoperator, Option.bind_some, hb]
  apply ((Folds.start ha).step hnext hshorter).outcome
  simp [hstop]

end Parser

/-- The length of the printed text. -/
def Selector.size (s : Selector) : Nat := s.render.toList.length

def Test.size (t : Test) : Nat := t.render.toList.length

/-- The selectors that are neither a sequence nor a step with tests. -/
def Selector.isAtom : Selector → Bool
  | .path .. => false
  | .testing .. => false
  | _ => true

namespace Parser

/-- The marks between two selectors in parentheses. -/
inductive Joins : Char → (Selector → Selector → Selector) → Prop
  | union : Joins '|' .union
  | intersection : Joins '&' .intersection

/-- The words between two tests in parentheses. -/
inductive Connects : List Char → (Test → Test → Test) → Prop
  | and : Connects ['a', 'n', 'd'] .and
  | or : Connects ['o', 'r'] .or

/-- Parsers that read back what stands between brackets, up to a length: a selector before a
bracket or a comma, two selectors with a mark between them, a test before a bracket, and two tests
with a word between them. A test before such a word is not taken for a selector in parentheses. -/
structure ReadsInner (selector : Parser Selector) (test : Parser Test) (n : Nat) : Prop where
  single : ∀ {s : Selector}, s.WellFormed Literal.Legible → s.size < n → ∀ {c : Char},
    c = ')' ∨ c = ',' → ∀ k,
    outcome selector (s.render.toList ++ c :: k) = some (s.reread, c :: k)
  joined : ∀ {l r : Selector}, l.WellFormed Literal.Legible → r.WellFormed Literal.Legible →
    l.size < n → r.size < n → ∀ {mark join}, Joins mark join → ∀ k,
    outcome selector (l.render.toList ++ ' ' :: mark :: ' ' :: (r.render.toList ++ ')' :: k)) =
      some (join l.reread r.reread, ')' :: k)
  refuses : ∀ k, outcome selector (')' :: k) = none
  condition : ∀ {t : Test}, t.WellFormed Literal.Legible → t.size < n → ∀ k,
    outcome test (t.render.toList ++ ']' :: k) = some (t.reread, ']' :: k)
  connected : ∀ {l r : Test}, l.WellFormed Literal.Legible → r.WellFormed Literal.Legible →
    l.size < n → r.size < n → ∀ {word join}, Connects word join → ∀ k,
    outcome test (l.render.toList ++ ' ' :: (word ++ ' ' :: (r.render.toList ++ ')' :: k))) =
      some (join l.reread r.reread, ')' :: k)
  open_before_word : ∀ {t : Test}, t.WellFormed Literal.Legible → t.size < n → ∀ {word join},
    Connects word join → ∀ k s l,
    outcome selector (t.render.toList ++ ' ' :: (word ++ ' ' :: k)) = some (s, l) →
      outcome (char ')') (Text.skipBlanks l) = none

/-! ## Atoms -/

variable {selector : Parser Selector} {test : Parser Test} {n : Nat}

private theorem outcome_grouped {a : Selector} {body k : List Char}
    (hopens : Opens (body ++ ')' :: k))
    (hread : outcome selector (body ++ ')' :: k) = some (a, ')' :: k)) (hk : EndsStep k) :
    outcome (grouped selector) ('(' :: (body ++ ')' :: k)) = some (.grouping a, k) := by
  simp +decide [grouped, hopens.skipBlanks, hread, skipBlanks_cons, quantifier_refuses hk,
    closeGroup, Except.toOption]

private theorem outcome_repeated {a : Selector} {body k : List Char} {min : Nat} {max : Option Nat}
    (hmin : min < wordLimit) (hmax : ∀ m ∈ max, min ≤ m ∧ m < wordLimit)
    (hopens : ∀ k, Opens (body ++ ')' :: k))
    (hread : ∀ k, outcome selector (body ++ ')' :: k) = some (a, ')' :: k)) :
    outcome (grouped selector) ('(' :: (body ++ ')' :: ((renderBounds min max).toList ++ k))) =
      some (.recursive a min max, k) := by
  have hbounds := outcome_quantifier hmin (fun m hm => (hmax m hm).2) k
  cases max with
  | none =>
    simp +decide [grouped, (hopens _).skipBlanks, hread, skipBlanks_cons, hbounds, closeGroup,
      Except.toOption]
  | some m =>
    have hle : ¬ m < min := Nat.not_lt.2 (hmax m rfl).1
    simp +decide [grouped, (hopens _).skipBlanks, hread, skipBlanks_cons, hbounds, closeGroup,
      Except.toOption, hle]

private theorem toList_renderArgs (s : Selector) (rest : List Selector) :
    (Selector.renderArgs (s :: rest)).toList =
      s.render.toList ++ rest.flatMap fun r => ',' :: ' ' :: r.render.toList := by
  induction rest generalizing s with
  | nil => simp [Selector.renderArgs]
  | cons r rest ih => simp [Selector.renderArgs, ih r]

private theorem outcome_padded_blank (p : Parser α) (s : List Char) :
    outcome (padded p) (' ' :: s) = outcome (padded p) s := by
  simp +decide [skipBlanks_cons]

private theorem outcome_argument (h : ReadsInner selector test n) {s : Selector}
    (hs : s.WellFormed Literal.Legible) (hsize : s.size < n) {c : Char} (hc : c = ')' ∨ c = ',')
    (k : List Char) :
    outcome (padded selector) (s.render.toList ++ c :: k) = some (s.reread, c :: k) := by
  have hblank : Text.isBlank c = false := by rcases hc with rfl | rfl <;> decide
  rw [outcome_padded, (s.opens hs _).skipBlanks, h.single hs hsize hc]
  simp [skipBlanks_cons, hblank]

private theorem renderArgs_ends (rest : List Selector) (k : List Char) : ∃ c m,
    (rest.flatMap fun r => ',' :: ' ' :: r.render.toList) ++ ')' :: k = c :: m ∧
      (c = ')' ∨ c = ',') := by
  cases rest <;> simp

private theorem chain_arguments (h : ReadsInner selector test n) {rest : List Selector}
    (hrest : ∀ s ∈ rest, s.WellFormed Literal.Legible ∧ s.size < n) (k : List Char) :
    Chain (do char ','; padded selector)
      ((rest.flatMap fun r => ',' :: ' ' :: r.render.toList) ++ ')' :: k)
      (rest.map Selector.reread) (')' :: k) := by
  induction rest with
  | nil => exact .nil _
  | cons s rest ih =>
    rw [List.forall_mem_cons] at hrest
    have htail := ih hrest.2
    obtain ⟨c, m, htext, hc⟩ := renderArgs_ends rest k
    have hread := outcome_argument h hrest.1.1 hrest.1.2 hc m
    rw [List.flatMap_cons, List.append_assoc, List.map_cons]
    rw [htext] at htail ⊢
    refine .cons ?_ htail
    simp only [List.cons_append, outcome_bind, outcome_char_cons, if_true, Option.bind_some,
      outcome_padded_blank, hread]

private theorem outcome_separated (h : ReadsInner selector test n) {args : List Selector}
    (hargs : ∀ s ∈ args, s.WellFormed Literal.Legible ∧ s.size < n) (k : List Char) :
    outcome (separated (char ',') (padded selector))
      ((Selector.renderArgs args).toList ++ ')' :: k) =
      some (args.map Selector.reread, ')' :: k) := by
  cases args with
  | nil =>
    have hnone : outcome (padded selector) (')' :: k) = none := by
      simp +decide [skipBlanks_cons, h.refuses]
    simp [separated, Selector.renderArgs, hnone, -outcome_padded]
  | cons s rest =>
    rw [List.forall_mem_cons] at hargs
    have hlength : rest.length ≤
        (rest.flatMap fun r => ',' :: ' ' :: r.render.toList).length := by
      clear hargs
      induction rest with
      | nil => simp
      | cons r rest ih =>
        simp only [List.flatMap_cons, List.length_append, List.length_cons]
        omega
    have hrest := (chain_arguments h hargs.2 k).outcome_many (by simp) (by
      rw [List.length_map, List.length_append]
      omega)
    obtain ⟨c, m, htext, hc⟩ := renderArgs_ends rest k
    have hfirst := outcome_argument h hargs.1.1 hargs.1.2 hc m
    rw [toList_renderArgs, List.append_assoc]
    rw [htext] at hrest ⊢
    simp [separated, hfirst, hrest, -outcome_padded]

private theorem outcome_functionCall (h : ReadsInner selector test n) {name : String}
    (hname : name ≠ "" ∧ name.toList.all isIdentifierChar = true) {args : List Selector}
    (hargs : ∀ s ∈ args, s.WellFormed Literal.Legible ∧ s.size < n) (k : List Char) :
    outcome (functionCall selector) ('f' :: 'n' :: ':' :: (name.toList ++ '(' ::
      ((Selector.renderArgs args).toList ++ ')' :: k))) =
      some (.function name (args.map Selector.reread), k) := by
  have hread : ∀ l, outcome identifier (name.toList ++ '(' :: l) = some (name, '(' :: l) := by
    intro l
    apply outcome_word hname.1 hname.2
    intro c hc
    cases hc
    decide
  have hblank : Text.skipBlanks ((Selector.renderArgs args).toList ++ ')' :: k) =
      (Selector.renderArgs args).toList ++ ')' :: k := by
    cases args with
    | nil => simp +decide [Selector.renderArgs, skipBlanks_cons]
    | cons s rest =>
      rw [toList_renderArgs, List.append_assoc]
      exact (s.opens (hargs s List.mem_cons_self).1 _).skipBlanks
  have hargs' := outcome_separated h hargs k
  simp +decide [functionCall, hread, skipBlanks_cons, hblank, hargs']

private theorem size_le_renderArgs {args : List Selector} {s : Selector} (hs : s ∈ args) :
    s.size ≤ (Selector.renderArgs args).toList.length := by
  cases args with
  | nil => cases hs
  | cons r rest =>
    rw [toList_renderArgs, List.length_append]
    rcases List.mem_cons.1 hs with rfl | hs
    · exact Nat.le_add_right _ _
    · have hmem : (',' :: ' ' :: s.render.toList).length ≤
          (rest.flatMap fun r => ',' :: ' ' :: r.render.toList).length := by
        have hmem : ',' :: ' ' :: s.render.toList ∈
            rest.map fun r => ',' :: ' ' :: r.render.toList := List.mem_map_of_mem hs
        rw [List.flatMap_def]
        exact (List.sublist_flatten_of_mem hmem).length_le
      simp only [List.length_cons] at hmem
      unfold Selector.size
      omega

private theorem outcome_atom (v : Vocabulary) (h : ReadsInner selector test n) {s : Selector}
    (hs : s.WellFormed Literal.Legible) (hatom : s.isAtom = true) (hsize : s.size ≤ n)
    {k : List Char} (hk : EndsStep k) :
    outcome (atom v selector) (s.render.toList ++ k) = some (s.reread, Text.skipBlanks k) := by
  have hbracket : ∀ {body : List Char} {a : Selector}, Opens (body ++ ')' :: k) →
      outcome selector (body ++ ')' :: k) = some (a, ')' :: k) →
      outcome (atom v selector) ('(' :: (body ++ ')' :: k)) =
        some (.grouping a, Text.skipBlanks k) := by
    intro body a hopens hread
    have hgroup := outcome_grouped hopens hread hk
    simp +decide [atom, skipBlanks_cons, functionCall, reverseProperty, hgroup]
  have hjoined : ∀ {l r : Selector} {mark join}, Joins mark join → l.WellFormed Literal.Legible →
      r.WellFormed Literal.Legible → l.size < n ∧ r.size < n →
      outcome (atom v selector)
        ('(' :: (l.render.toList ++ ' ' :: mark :: ' ' :: (r.render.toList ++ ')' :: k))) =
        some (.grouping (join l.reread r.reread), Text.skipBlanks k) := by
    intro l r mark join hjoins hl hr hn
    have hread := h.joined hl hr hn.1 hn.2 hjoins k
    have hopens := l.opens hl (' ' :: mark :: ' ' :: (r.render.toList ++ ')' :: k))
    simpa using @hbracket (l.render.toList ++ ' ' :: mark :: ' ' :: r.render.toList)
      (join l.reread r.reread) (by simpa using hopens) (by simpa using hread)
  have hiri : ∀ {p : Iri}, p.WellFormed →
      outcome (iri v) ('<' :: (p.text.toList ++ '>' :: k)) = some (p, k) := by
    intro p hp
    simpa [hp.toList_render] using outcome_iri v hp k
  cases s with
  | property p =>
    rw [Selector.WellFormed] at hs
    have hliteral := literal_refuses v (c := '<') (p.text.toList ++ '>' :: k) (by decide)
    simp +decide [Selector.render, hs.toList_render, atom, skipBlanks_cons, functionCall,
      reverseProperty, grouped, Selector.reread, hliteral, hiri hs]
  | reverse p =>
    rw [Selector.WellFormed] at hs
    simp +decide [Selector.render, hs.toList_render, atom, skipBlanks_cons, functionCall,
      reverseProperty, Selector.reread, hiri hs]
  | path l r => cases hatom
  | union l r =>
    rw [Selector.WellFormed] at hs
    have hparts : l.size < n ∧ r.size < n := by
      simp [Selector.size, Selector.render] at hsize ⊢
      omega
    simpa [Selector.render, Selector.reread] using hjoined .union hs.1 hs.2 hparts
  | intersection l r =>
    rw [Selector.WellFormed] at hs
    have hparts : l.size < n ∧ r.size < n := by
      simp [Selector.size, Selector.render] at hsize ⊢
      omega
    simpa [Selector.render, Selector.reread] using hjoined .intersection hs.1 hs.2 hparts
  | recursive inner min max =>
    rw [Selector.WellFormed] at hs
    simp [Selector.size, Selector.render] at hsize
    have hinner : inner.size < n := by
      unfold Selector.size
      omega
    have hread := outcome_repeated (k := k) hs.2.1 hs.2.2 (fun k => inner.opens hs.1 _)
      fun k => h.single hs.1 hinner (.inl rfl) k
    simp +decide [Selector.render, atom, skipBlanks_cons, functionCall, reverseProperty,
      Selector.reread, hread]
  | grouping inner =>
    rw [Selector.WellFormed] at hs
    simp [Selector.size, Selector.render] at hsize
    have hinner : inner.size < n := by
      unfold Selector.size
      omega
    have hatom := hbracket (inner.opens hs _) (h.single hs hinner (.inl rfl) k)
    simpa [Selector.render, Selector.reread] using hatom
  | testing s t => cases hatom
  | function name args =>
    rw [Selector.WellFormed, Selector.allWellFormed_iff] at hs
    simp [Selector.size, Selector.render] at hsize
    have hargs : ∀ s ∈ args, s.WellFormed Literal.Legible ∧ s.size < n := by
      intro s hmem
      have hlength := size_le_renderArgs hmem
      exact ⟨hs.2 s hmem, by omega⟩
    have hread := outcome_functionCall h hs.1 hargs k
    simp +decide [Selector.render, atom, skipBlanks_cons, Selector.reread,
      Selector.rereadAll_eq_map, hread]
  | self =>
    simp +decide [Selector.render, atom, skipBlanks_cons, functionCall, reverseProperty, grouped,
      Selector.reread]
  | wildcard =>
    simp +decide [Selector.render, atom, skipBlanks_cons, functionCall, reverseProperty, grouped,
      Selector.reread]
  | constant node =>
    obtain ⟨l, rfl, hl⟩ := hs
    have hread := outcome_literal v hl hk
    rw [Literal.toList_render] at hread
    simp only [List.cons_append, List.append_assoc] at hread
    simp +decide only [Selector.render, Node.render, Literal.toList_render, List.cons_append]
    simp +decide [atom, skipBlanks_cons, functionCall, reverseProperty, grouped, Selector.reread,
      hread]

/-! ## Sequences of steps -/

/-- What follows ends a step, and behind the blanks none of the marks goes on with it. -/
def Ends (marks : List Char) (k : List Char) : Prop :=
  EndsStep k ∧ ∀ c ∈ (Text.skipBlanks k).head?, c ∉ marks

theorem Ends.mono {marks marks' : List Char} {k : List Char} (h : Ends marks k)
    (hsub : marks' ⊆ marks) : Ends marks' k :=
  ⟨h.1, fun c hc hmem => h.2 c hc (hsub hmem)⟩

theorem Ends.refuses {marks : List Char} {k : List Char} (h : Ends marks k) {c : Char}
    (hc : c ∈ marks) : outcome (char c) (Text.skipBlanks k) = none := by
  have hhead := h.2
  cases hblank : Text.skipBlanks k with
  | nil => exact outcome_char_nil c
  | cons d k' =>
    rw [hblank] at hhead
    have hne : d ≠ c := by
      rintro rfl
      exact hhead d rfl hc
    rw [outcome_char_cons, if_neg hne]

/-- A test in brackets. -/
def bracketed (test : Parser Test) : Parser Test :=
  padded do
    char '['
    let t ← padded test
    char ']'
    return t

private theorem step_eq (v : Vocabulary) (selector : Parser Selector) (test : Parser Test) :
    step v selector test = do
      let first ← atom v selector
      let tests ← many (bracketed test)
      return tests.foldl .testing first := rfl

private theorem length_skipBlanks_le (k : List Char) : (Text.skipBlanks k).length ≤ k.length :=
  (List.dropWhile_suffix _).length_le

end Parser

theorem Test.skipBlanks_render {ok : Literal → Prop} {t : Test} (ht : t.WellFormed ok)
    (k : List Char) : Text.skipBlanks (t.render.toList ++ k) = t.render.toList ++ k := by
  cases t with
  | comparison op l r =>
    rw [Test.WellFormed] at ht
    simpa [Test.render] using (l.opens ht.1 (' ' :: (op.symbol.toList ++ ' ' ::
      (r.render.toList ++ k)))).skipBlanks
  | pathEquality l r =>
    rw [Test.WellFormed] at ht
    simpa [Test.render] using (l.opens ht.1 (' ' :: 'i' :: 's' :: ' ' ::
      (r.render.toList ++ k))).skipBlanks
  | pathExists s =>
    rw [Test.WellFormed] at ht
    simpa [Test.render] using (s.opens ht k).skipBlanks
  | _ => simp +decide [Test.render, Parser.skipBlanks_cons]

namespace Parser

private theorem folds_step (v : Vocabulary) (h : ReadsInner selector test n) {s : Selector}
    (hs : s.WellFormed Literal.Legible) (hpath : ∀ l r, s ≠ .path l r) (hsize : s.size ≤ n)
    {k : List Char} (hk : EndsStep k) :
    Folds (atom v selector) (bracketed test) .testing (s.render.toList ++ k) s.reread
      (Text.skipBlanks k) := by
  cases hatom : s.isAtom with
  | true => exact .start (outcome_atom v h hs hatom hsize hk)
  | false =>
    cases s with
    | testing s t =>
      rw [Selector.WellFormed] at hs
      have hinner : s.size ≤ n ∧ t.size < n := by
        simp [Selector.size, Test.size, Selector.render] at hsize ⊢
        omega
      have hbefore := folds_step v h hs.1 (k := '[' :: (t.render.toList ++ ']' :: k))
        (by rintro l r rfl; cases hs.2.2) hinner.1 (by simp +decide)
      have hread := h.condition hs.2.1 hinner.2 k
      have hbracketed : outcome (bracketed test) ('[' :: (t.render.toList ++ ']' :: k)) =
          some (t.reread, Text.skipBlanks k) := by
        simp +decide [bracketed, skipBlanks_cons, Test.skipBlanks_render hs.2.1, hread]
      have hopen : Text.skipBlanks ('[' :: (t.render.toList ++ ']' :: k)) =
          '[' :: (t.render.toList ++ ']' :: k) := by simp +decide [skipBlanks_cons]
      rw [hopen] at hbefore
      have hshorter := length_skipBlanks_le k
      simpa [Selector.render, Selector.reread] using hbefore.step hbracketed (by simp; omega)
    | path l r => exact absurd rfl (hpath l r)
    | _ => cases hatom

private theorem outcome_step (v : Vocabulary) (h : ReadsInner selector test n) {s : Selector}
    (hs : s.WellFormed Literal.Legible) (hpath : ∀ l r, s ≠ .path l r) (hsize : s.size ≤ n)
    {k : List Char} (hk : Ends ['['] k) :
    outcome (step v selector test) (s.render.toList ++ k) = some (s.reread, Text.skipBlanks k) := by
  rw [step_eq]
  apply (folds_step v h hs hpath hsize hk.1).outcome
  simp [bracketed, skipBlanks_skipBlanks, hk.refuses]

private theorem folds_sequence (v : Vocabulary) (h : ReadsInner selector test n) {s : Selector}
    (hs : s.WellFormed Literal.Legible) (hsize : s.size ≤ n) {k : List Char} (hk : Ends ['['] k) :
    Folds (step v selector test) (do padded (char '/'); step v selector test) .path
      (s.render.toList ++ k) s.reread (Text.skipBlanks k) := by
  cases s with
  | path l r =>
    rw [Selector.WellFormed] at hs
    have hparts : l.size ≤ n ∧ r.size ≤ n := by
      simp [Selector.size, Selector.render] at hsize ⊢
      omega
    have hslash : Text.skipBlanks ('/' :: (r.render.toList ++ k)) =
        '/' :: (r.render.toList ++ k) := by simp +decide [skipBlanks_cons]
    have hbefore := folds_sequence v h hs.1 hparts.1 (k := '/' :: (r.render.toList ++ k))
      ⟨by simp +decide, by simp [hslash]⟩
    have hread := outcome_step v h hs.2.1 (by rintro l r rfl; cases hs.2.2) hparts.2 hk
    have hnext : outcome (do padded (char '/'); step v selector test)
        ('/' :: (r.render.toList ++ k)) = some (r.reread, Text.skipBlanks k) := by
      simp [hslash, (r.opens hs.2.1 k).skipBlanks, hread]
    rw [hslash] at hbefore
    have hshorter := length_skipBlanks_le k
    simpa [Selector.render, Selector.reread] using hbefore.step hnext (by simp; omega)
  | _ => exact .start (outcome_step v h hs (by simp) hsize hk)

/-! ## Selectors -/

theorem ends_bracket {marks : List Char} {c : Char} (hc : c = ')' ∨ c = ',')
    (hmarks : c ∉ marks) (k : List Char) : Ends marks (c :: k) := by
  rcases hc with rfl | rfl <;> simpa +decide [Ends, skipBlanks_cons] using hmarks

theorem skipBlanks_bracket {c : Char} (hc : c = ')' ∨ c = ',') (k : List Char) :
    Text.skipBlanks (c :: k) = c :: k := by
  rcases hc with rfl | rfl <;> simp +decide [skipBlanks_cons]

variable (v : Vocabulary)

private theorem outcome_sequence (h : ReadsInner selector test n) {s : Selector}
    (hs : s.WellFormed Literal.Legible) (hsize : s.size ≤ n) {k : List Char}
    (hk : Ends ['[', '/'] k) :
    outcome (leftAssoc .path (char '/') (step v selector test)) (s.render.toList ++ k) =
      some (s.reread, Text.skipBlanks k) := by
  apply (folds_sequence v h hs hsize (hk.mono (by simp))).outcome
  simp [skipBlanks_skipBlanks, hk.refuses]

private theorem outcome_intersection (h : ReadsInner selector test n) {s : Selector}
    (hs : s.WellFormed Literal.Legible) (hsize : s.size ≤ n) {k : List Char}
    (hk : Ends ['[', '/', '&'] k) :
    outcome (leftAssoc .intersection (char '&')
      (leftAssoc .path (char '/') (step v selector test))) (s.render.toList ++ k) =
      some (s.reread, Text.skipBlanks k) := by
  apply outcome_leftAssoc_single (outcome_sequence v h hs hsize (hk.mono (by simp)))
  rw [skipBlanks_skipBlanks, hk.refuses (by simp)]

theorem outcome_selectorLevel (h : ReadsInner selector test n) {s : Selector}
    (hs : s.WellFormed Literal.Legible) (hsize : s.size ≤ n) {k : List Char}
    (hk : Ends ['[', '/', '&', '|'] k) :
    outcome (selectorLevel v selector test) (s.render.toList ++ k) =
      some (s.reread, Text.skipBlanks k) := by
  apply outcome_leftAssoc_single (outcome_intersection v h hs hsize (hk.mono (by simp)))
  rw [skipBlanks_skipBlanks, hk.refuses (by simp)]

theorem outcome_selectorLevel_joined (h : ReadsInner selector test n) {l r : Selector}
    (hl : l.WellFormed Literal.Legible) (hr : r.WellFormed Literal.Legible) (hlsize : l.size ≤ n)
    (hrsize : r.size ≤ n) {mark : Char} {join : Selector → Selector → Selector}
    (hjoins : Joins mark join) (k : List Char) :
    outcome (selectorLevel v selector test)
      (l.render.toList ++ ' ' :: mark :: ' ' :: (r.render.toList ++ ')' :: k)) =
      some (join l.reread r.reread, ')' :: k) := by
  have hblank : Text.skipBlanks (')' :: k) = ')' :: k := skipBlanks_bracket (.inl rfl) k
  have hright := (r.opens hr (')' :: k)).skipBlanks
  cases hjoins with
  | union =>
    have hleft := outcome_intersection v h hl hlsize
      (k := ' ' :: '|' :: ' ' :: (r.render.toList ++ ')' :: k))
      (by simp +decide [Ends, skipBlanks_cons])
    have hread := outcome_intersection v h hr hrsize (ends_bracket (.inl rfl) (by decide) k)
    rw [hblank] at hread
    refine outcome_leftAssoc_pair hleft ?_ hread ?_ ?_
    · simp +decide [skipBlanks_cons, hright]
    · simp +decide [skipBlanks_cons]
      omega
    · simp [hblank]
  | intersection =>
    have hleft := outcome_sequence v h hl hlsize
      (k := ' ' :: '&' :: ' ' :: (r.render.toList ++ ')' :: k))
      (by simp +decide [Ends, skipBlanks_cons])
    have hread := outcome_sequence v h hr hrsize (ends_bracket (.inl rfl) (by decide) k)
    rw [hblank] at hread
    refine outcome_leftAssoc_single (outcome_leftAssoc_pair hleft ?_ hread ?_ ?_) ?_
    · simp +decide [skipBlanks_cons, hright]
    · simp +decide [skipBlanks_cons]
      omega
    · simp [hblank]
    · simp [hblank]

theorem selectorLevel_refuses {s : List Char} (h : outcome (atom v selector) s = none) :
    outcome (selectorLevel v selector test) s = none := by
  simp [selectorLevel, leftAssoc, step, h]

end Parser

end GraphPath
