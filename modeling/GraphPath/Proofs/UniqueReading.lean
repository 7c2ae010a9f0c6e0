import GraphPath.Proofs.Spelling
import GraphPath.Query.Sparql

/-!
# Unique reading of SPARQL texts

Two queries with well-formed terms have the same text only if they are the same query, apart from
nested groups, which have the text of a union with one branch. The text of each part of a query can
be cut off from the text that follows it: an expression is followed by a blank, a bracket or a
comma, an element by the end of its line, a group by the line of its closing brace.
-/

namespace GraphPath

mutual

/-- The terms in an expression, as often as they stand there. -/
def Expr.terms : Expr → List Term
  | .always => []
  | .term t => [t]
  | .not e => e.terms
  | .and l r => l.terms ++ r.terms
  | .or l r => l.terms ++ r.terms
  | .compare _ l r => l.terms ++ r.terms
  | .exist scope => Element.groupTerms scope
  | .coalesce args => Expr.listTerms args
  | .call _ args => Expr.listTerms args

def Expr.listTerms : List Expr → List Term
  | [] => []
  | e :: rest => e.terms ++ Expr.listTerms rest

/-- The terms in an element, as often as they stand there. -/
def Element.terms : Element → List Term
  | .triple t => [t.subject, t.predicate, t.object]
  | .group inner => Element.groupTerms inner
  | .union branches => Element.branchTerms branches
  | .optional inner => Element.groupTerms inner
  | .filter e => e.terms
  | .bind e target => e.terms ++ [.var target]

def Element.groupTerms : List Element → List Term
  | [] => []
  | e :: rest => e.terms ++ Element.groupTerms rest

def Element.branchTerms : List (List Element) → List Term
  | [] => []
  | g :: rest => Element.groupTerms g ++ Element.branchTerms rest

end

mutual

/-- The expression with every nested group as a union of one branch. -/
def Expr.normal : Expr → Expr
  | .always => .always
  | .term t => .term t
  | .not e => .not e.normal
  | .and l r => .and l.normal r.normal
  | .or l r => .or l.normal r.normal
  | .compare op l r => .compare op l.normal r.normal
  | .exist scope => .exist (Element.groupNormal scope)
  | .coalesce args => .coalesce (Expr.listNormal args)
  | .call function args => .call function (Expr.listNormal args)

def Expr.listNormal : List Expr → List Expr
  | [] => []
  | e :: rest => e.normal :: Expr.listNormal rest

/-- The element with every nested group as a union of one branch. -/
def Element.normal : Element → Element
  | .triple t => .triple t
  | .group inner => .union [Element.groupNormal inner]
  | .union branches => .union (Element.branchNormal branches)
  | .optional inner => .optional (Element.groupNormal inner)
  | .filter e => .filter e.normal
  | .bind e target => .bind e.normal target

def Element.groupNormal : List Element → List Element
  | [] => []
  | e :: rest => e.normal :: Element.groupNormal rest

def Element.branchNormal : List (List Element) → List (List Element)
  | [] => []
  | g :: rest => Element.groupNormal g :: Element.branchNormal rest

end

private theorem negated_normal (e : Expr) (text : String) :
    negated e.normal text = negated e text := by
  cases e <;> rfl

mutual

private theorem Expr.toSparql_normal (depth : Nat) (e : Expr) :
    e.normal.toSparql depth = e.toSparql depth := by
  cases e with
  | always => rfl
  | term t => rfl
  | not e => simp only [Expr.normal, Expr.toSparql, Expr.toSparql_normal depth e, negated_normal]
  | and l r =>
    simp only [Expr.normal, Expr.toSparql, Expr.toSparql_normal depth l,
      Expr.toSparql_normal depth r]
  | or l r =>
    simp only [Expr.normal, Expr.toSparql, Expr.toSparql_normal depth l,
      Expr.toSparql_normal depth r]
  | compare op l r =>
    simp only [Expr.normal, Expr.toSparql, Expr.toSparql_normal depth l,
      Expr.toSparql_normal depth r]
  | exist scope =>
    simp only [Expr.normal, Expr.toSparql, Element.groupToSparql_normal (depth + 1) scope]
  | coalesce args => simp only [Expr.normal, Expr.toSparql, Expr.listToSparql_normal depth args]
  | call function args =>
    simp only [Expr.normal, Expr.toSparql, Expr.listToSparql_normal depth args]

private theorem Expr.listToSparql_normal (depth : Nat) (args : List Expr) :
    Expr.listToSparql depth (Expr.listNormal args) = Expr.listToSparql depth args := by
  match args with
  | [] => rfl
  | [e] => simp only [Expr.listNormal, Expr.listToSparql, Expr.toSparql_normal depth e]
  | e :: e' :: rest =>
    have hrest := Expr.listToSparql_normal depth (e' :: rest)
    simp only [Expr.listNormal] at hrest
    simp only [Expr.listNormal, Expr.listToSparql, Expr.toSparql_normal depth e, hrest]

private theorem Element.toSparql_normal (depth : Nat) (e : Element) :
    e.normal.toSparql depth = e.toSparql depth := by
  cases e with
  | triple t => rfl
  | group inner =>
    simp only [Element.normal, Element.toSparql, Element.branchesToSparql,
      Element.groupToSparql_normal (depth + 1) inner]
  | union branches =>
    simp only [Element.normal, Element.toSparql, Element.branchesToSparql_normal depth branches]
  | optional inner =>
    simp only [Element.normal, Element.toSparql, Element.groupToSparql_normal (depth + 1) inner]
  | filter e => simp only [Element.normal, Element.toSparql, Expr.toSparql_normal depth e]
  | bind e target => simp only [Element.normal, Element.toSparql, Expr.toSparql_normal depth e]

private theorem Element.groupToSparql_normal (depth : Nat) (g : List Element) :
    Element.groupToSparql depth (Element.groupNormal g) = Element.groupToSparql depth g := by
  match g with
  | [] => rfl
  | e :: rest =>
    simp only [Element.groupNormal, Element.groupToSparql, Element.toSparql_normal depth e,
      Element.groupToSparql_normal depth rest]

private theorem Element.branchesToSparql_normal (depth : Nat) (branches : List (List Element)) :
    Element.branchesToSparql depth (Element.branchNormal branches) =
      Element.branchesToSparql depth branches := by
  match branches with
  | [] => rfl
  | [g] =>
    simp only [Element.branchNormal, Element.branchesToSparql,
      Element.groupToSparql_normal (depth + 1) g]
  | g :: g' :: rest =>
    have hrest := Element.branchesToSparql_normal depth (g' :: rest)
    simp only [Element.branchNormal] at hrest
    simp only [Element.branchNormal, Element.branchesToSparql,
      Element.groupToSparql_normal (depth + 1) g, hrest]

end

/-! ## Expressions -/

/-- The forms that the text of an expression can have. -/
inductive Shape where
  | always
  | term
  | absence
  | negation
  | joined
  | existence
  | applied
deriving DecidableEq

def Expr.shape : Expr → Shape
  | .always => .always
  | .term _ => .term
  | .not (.exist _) => .absence
  | .not _ => .negation
  | .and .. => .joined
  | .or .. => .joined
  | .compare .. => .joined
  | .exist _ => .existence
  | .coalesce _ => .applied
  | .call .. => .applied

/-- The form of the expression whose text starts with the character. -/
def Shape.ofLead (c : Char) : Shape :=
  if c = 't' then .always
  else if c = '?' ∨ c = '<' ∨ c = '"' then .term
  else if c = 'N' then .absence
  else if c = '!' then .negation
  else if c = '(' then .joined
  else if c = 'E' then .existence
  else .applied

/-- What stands between two operands in parentheses. -/
inductive Connective where
  | and
  | or
  | compare (op : Comparison)
deriving DecidableEq

def Connective.symbol : Connective → String
  | .and => "&&"
  | .or => "||"
  | .compare op => op.symbol

private theorem Connective.symbol_injective {c c' : Connective} (h : c.symbol = c'.symbol) :
    c = c' := by
  rcases c with _ | _ | op <;> rcases c' with _ | _ | op' <;> try cases op
  all_goals try cases op'
  all_goals first | rfl | (simp [symbol, Comparison.symbol] at h)

private theorem Connective.blank_not_mem_symbol (c : Connective) :
    ∀ x ∈ c.symbol.toList, x ≠ ' ' := by
  rcases c with _ | _ | op
  · simp [symbol]
  · simp [symbol]
  · cases op <;> simp [symbol, Comparison.symbol]

def Expr.joined : Connective → Expr → Expr → Expr
  | .and, l, r => .and l r
  | .or, l, r => .or l r
  | .compare op, l, r => .compare op l r

/-- The name before the arguments; without a function it is that of the first value. -/
def Builtin.nameOf : Option Builtin → String
  | none => "COALESCE"
  | some function => function.name

private theorem Builtin.nameOf_injective {f f' : Option Builtin} (h : nameOf f = nameOf f') :
    f = f' := by
  rcases f with _ | f <;> rcases f' with _ | f' <;> try cases f
  all_goals try cases f'
  all_goals first | rfl | (simp [nameOf, name] at h)

private theorem Builtin.bracket_not_mem_nameOf (f : Option Builtin) :
    ∀ x ∈ (nameOf f).toList, x ≠ '(' := by
  rcases f with _ | f
  · simp [nameOf]
  · cases f <;> simp [nameOf, name]

def Expr.applied : Option Builtin → List Expr → Expr
  | none, args => .coalesce args
  | some function, args => .call function args

namespace Expr

/-- The first character of the text tells the form, and ends or continues nothing before it. -/
theorem exists_lead (depth : Nat) (e : Expr) :
    ∃ c rest, (e.toSparql depth).toList = c :: rest ∧ Shape.ofLead c = e.shape ∧
      c ≠ ')' ∧ c ≠ '=' := by
  cases e with
  | term t =>
    obtain ⟨rest, hrest⟩ := t.toList_render
    refine ⟨t.lead, rest, hrest, ?_⟩
    rcases t with v | i | a <;> simp [Term.lead, Shape.ofLead, shape]
  | not e => cases e <;> simp [toSparql, negated, shape, Shape.ofLead]
  | call function args =>
    cases function <;> simp [toSparql, Builtin.name, shape, Shape.ofLead]
  | _ => simp [toSparql, shape, Shape.ofLead]

private theorem shape_eq {depth : Nat} {x y : Expr} {k l : List Char}
    (h : (x.toSparql depth).toList ++ k = (y.toSparql depth).toList ++ l) : x.shape = y.shape := by
  obtain ⟨c, rest, hx, hshape, -⟩ := x.exists_lead depth
  obtain ⟨c', rest', hy, hshape', -⟩ := y.exists_lead depth
  rw [hx, hy] at h
  rw [← hshape, ← hshape', (List.cons.inj h).1]

private theorem exists_term_of_shape {e : Expr} (h : e.shape = .term) : ∃ t, e = .term t := by
  cases e with
  | term t => exact ⟨t, rfl⟩
  | not e => cases e <;> cases h
  | _ => cases h

private theorem exists_joined_of_shape {e : Expr} (h : e.shape = .joined) :
    ∃ c l r, e = joined c l r := by
  cases e with
  | and l r => exact ⟨.and, l, r, rfl⟩
  | or l r => exact ⟨.or, l, r, rfl⟩
  | compare op l r => exact ⟨.compare op, l, r, rfl⟩
  | not e => cases e <;> cases h
  | _ => cases h

theorem exists_exist_of_shape {e : Expr} (h : e.shape = .existence) :
    ∃ scope, e = .exist scope := by
  cases e with
  | exist scope => exact ⟨scope, rfl⟩
  | not e => cases e <;> cases h
  | _ => cases h

private theorem exists_applied_of_shape {e : Expr} (h : e.shape = .applied) :
    ∃ f args, e = applied f args := by
  cases e with
  | coalesce args => exact ⟨none, args, rfl⟩
  | call function args => exact ⟨some function, args, rfl⟩
  | not e => cases e <;> cases h
  | _ => cases h

private theorem exists_absence_of_shape {e : Expr} (h : e.shape = .absence) :
    ∃ scope, e = .not (.exist scope) := by
  cases e with
  | not e =>
    cases e with
    | exist scope => exact ⟨scope, rfl⟩
    | _ => cases h
  | _ => cases h

private theorem exists_negation_of_shape {e : Expr} (h : e.shape = .negation) :
    ∃ inner, e = .not inner ∧ inner.shape ≠ .existence := by
  cases e with
  | not e =>
    refine ⟨e, rfl, ?_⟩
    intro hinner
    obtain ⟨scope, rfl⟩ := exists_exist_of_shape hinner
    cases h
  | _ => cases h

private theorem terms_joined (c : Connective) (l r : Expr) :
    (joined c l r).terms = l.terms ++ r.terms := by
  cases c <;> simp only [joined, terms]

private theorem normal_joined (c : Connective) (l r : Expr) :
    (joined c l r).normal = joined c l.normal r.normal := by
  cases c <;> simp only [joined, normal]

theorem toList_joined (depth : Nat) (c : Connective) (l r : Expr) :
    ((joined c l r).toSparql depth).toList = '(' :: ((l.toSparql depth).toList ++
      ' ' :: (c.symbol.toList ++ ' ' :: ((r.toSparql depth).toList ++ [')']))) := by
  cases c <;> simp [joined, toSparql, Connective.symbol]

private theorem terms_applied (f : Option Builtin) (args : List Expr) :
    (applied f args).terms = listTerms args := by
  cases f <;> simp only [applied, terms]

private theorem normal_applied (f : Option Builtin) (args : List Expr) :
    (applied f args).normal = applied f (listNormal args) := by
  cases f <;> simp only [applied, normal]

theorem toList_applied (depth : Nat) (f : Option Builtin) (args : List Expr) :
    ((applied f args).toSparql depth).toList =
      (Builtin.nameOf f).toList ++ '(' :: ((listToSparql depth args).toList ++ [')']) := by
  cases f <;> simp [applied, toSparql, Builtin.nameOf]

/-- The first operand of an expression in parentheses. -/
def left : Expr → Expr
  | .and l _ => l
  | .or l _ => l
  | .compare _ l _ => l
  | e => e

private theorem left_joined (c : Connective) (l r : Expr) :
    (joined c l r).left = l := by cases c <;> rfl

def isNot : Expr → Bool
  | .not _ => true
  | _ => false

theorem toList_absence (depth : Nat) (scope : Group) :
    ((Expr.not (.exist scope)).toSparql depth).toList =
      "NOT ".toList ++ ((Expr.exist scope).toSparql depth).toList := by
  simp [toSparql, negated]

theorem toList_negation (depth : Nat) {e : Expr} (h : e.shape ≠ .existence) :
    ((Expr.not e).toSparql depth).toList =
      '!' :: if e.isNot then '(' :: ((e.toSparql depth).toList ++ [')'])
        else (e.toSparql depth).toList := by
  cases e with
  | exist scope => exact absurd rfl h
  | _ => simp [toSparql, negated, isNot]

/-- The text of the expression can be cut off from what follows it. -/
def Readable (x : Expr) : Prop :=
  ∀ ⦃depth : Nat⦄ ⦃y : Expr⦄ ⦃k l : List Char⦄, (∀ t ∈ y.terms, t.WellFormed) →
    Text.Ended k → Text.Ended l →
    (x.toSparql depth).toList ++ k = (y.toSparql depth).toList ++ l →
    x.normal = y.normal ∧ k = l

private theorem readable_always : Expr.always.Readable := by
  intro depth y k l _ _ _ h
  have hshape := shape_eq h
  cases y with
  | always => exact ⟨rfl, List.append_cancel_left h⟩
  | not e => cases e <;> cases hshape
  | _ => cases hshape

private theorem readable_term {t : Term} (ht : t.WellFormed) : (Expr.term t).Readable := by
  intro depth y k l hy hk hl h
  obtain ⟨u, rfl⟩ := exists_term_of_shape (shape_eq h).symm
  have hu : u.WellFormed := hy u (by simp [terms])
  have hcut := Term.cut ht hu hk hl h
  exact ⟨by rw [hcut.1], hcut.2⟩

private theorem readable_joined {c : Connective} {x x' : Expr} (hx : x.Readable)
    (hx' : x'.Readable) :
    (joined c x x').Readable := by
  intro depth y k l hy hk hl h
  have hshape : (joined c x x').shape = .joined := by cases c <;> rfl
  obtain ⟨c', z, z', rfl⟩ := exists_joined_of_shape ((shape_eq h).symm.trans hshape)
  rw [terms_joined, List.forall_mem_append] at hy
  simp only [toList_joined, List.cons_append, List.append_assoc, List.cons.injEq, true_and,
    List.nil_append] at h
  have hleft := hx hy.1 (by simp [Text.endsTerm]) (by simp [Text.endsTerm]) h
  have hsymbol := Text.cut_class (p := fun x => x ≠ ' ')
    (by simpa using c.blank_not_mem_symbol) (by simpa using c'.blank_not_mem_symbol)
    (by simp) (by simp) (List.cons.inj hleft.2).2
  have hright := hx' hy.2 (by simp [Text.endsTerm]) (by simp [Text.endsTerm])
    (List.cons.inj hsymbol.2).2
  have hc : c = c' := Connective.symbol_injective (String.toList_inj.1 hsymbol.1)
  rw [normal_joined, normal_joined, hc, hleft.1, hright.1]
  exact ⟨rfl, (List.cons.inj hright.2).2⟩

private theorem exists_joined_of_bracket {depth : Nat} {e : Expr} {k l : List Char}
    (h : (e.toSparql depth).toList ++ k = '(' :: l) : ∃ c x x', e = joined c x x' := by
  obtain ⟨c, rest, he, hshape, -⟩ := e.exists_lead depth
  rw [he] at h
  rw [(List.cons.inj h).1] at hshape
  exact exists_joined_of_shape hshape.symm

private theorem joined_ne_bracketed {depth : Nat} {c : Connective} {x x' y : Expr} {k l : List Char}
    (hcut : ∀ {a b : List Char}, (x.toSparql depth).toList ++ ' ' :: a =
      (y.toSparql depth).toList ++ ')' :: b → ' ' :: a = ')' :: b) :
    ((joined c x x').toSparql depth).toList ++ k ≠
      '(' :: ((y.toSparql depth).toList ++ ')' :: l) := by
  intro h
  simp only [toList_joined, List.cons_append, List.append_assoc, List.cons.injEq, true_and] at h
  simpa using hcut h

private theorem readable_not {e : Expr} (he : e.Readable) (hleft : e.left.Readable) :
    (Expr.not e).Readable := by
  intro depth y k l hy hk hl h
  have hshape := shape_eq h
  by_cases hexist : e.shape = .existence
  · obtain ⟨scope, rfl⟩ := exists_exist_of_shape hexist
    obtain ⟨scope', rfl⟩ := exists_absence_of_shape hshape.symm
    simp only [toList_absence, List.append_assoc, List.append_cancel_left_eq] at h
    have hcut := he (y := .exist scope') (by simpa [terms] using hy) hk hl h
    exact ⟨by rw [normal, hcut.1, normal], hcut.2⟩
  · have hnegation : (Expr.not e).shape = .negation := by
      cases e with
      | exist scope => exact absurd rfl hexist
      | _ => rfl
    obtain ⟨e', rfl, hexist'⟩ := exists_negation_of_shape (hshape.symm.trans hnegation)
    rw [terms] at hy
    simp only [toList_negation depth hexist, toList_negation depth hexist', List.cons_append,
      List.cons.injEq, true_and] at h
    have hsame : ∀ {a b : List Char}, Text.Ended a → Text.Ended b →
        (e.toSparql depth).toList ++ a = (e'.toSparql depth).toList ++ b →
        (Expr.not e).normal = (Expr.not e').normal ∧ a = b := by
      intro a b ha hb hab
      have hcut := he hy ha hb hab
      exact ⟨by rw [normal, normal, hcut.1], hcut.2⟩
    -- parentheses around the negation on one side would be those of two operands on the other
    cases hnot : e.isNot <;> cases hnot' : e'.isNot <;>
      simp only [hnot, hnot', if_true, Bool.false_eq_true, if_false, List.cons_append,
        List.append_assoc, List.nil_append] at h
    · exact hsame hk hl h
    · obtain ⟨c, x, x', rfl⟩ := exists_joined_of_bracket h
      rw [left_joined] at hleft
      refine absurd h (joined_ne_bracketed ?_)
      intro a b hab
      exact (hleft hy (by simp [Text.endsTerm]) (by simp [Text.endsTerm]) hab).2
    · obtain ⟨c, x, x', rfl⟩ := exists_joined_of_bracket h.symm
      rw [terms_joined, List.forall_mem_append] at hy
      refine absurd h.symm (joined_ne_bracketed ?_)
      intro a b hab
      exact (he hy.1 (by simp [Text.endsTerm]) (by simp [Text.endsTerm]) hab.symm).2.symm
    · have hcut := hsame (by simp [Text.endsTerm]) (by simp [Text.endsTerm]) (List.cons.inj h).2
      exact ⟨hcut.1, (List.cons.inj hcut.2).2⟩

/-- The arguments can be cut off at the bracket that closes them. -/
def ListReadable (xs : List Expr) : Prop :=
  ∀ ⦃depth : Nat⦄ ⦃ys : List Expr⦄ ⦃k l : List Char⦄, (∀ t ∈ listTerms ys, t.WellFormed) →
    (listToSparql depth xs).toList ++ ')' :: k = (listToSparql depth ys).toList ++ ')' :: l →
    listNormal xs = listNormal ys ∧ k = l

theorem toList_listToSparql_cons (depth : Nat) (e : Expr) (rest : List Expr) :
    (listToSparql depth (e :: rest)).toList = (e.toSparql depth).toList ++
      match rest with
      | [] => []
      | _ :: _ => ',' :: ' ' :: (listToSparql depth rest).toList := by
  cases rest <;> simp [listToSparql]

private theorem toList_toSparql_ne_bracket (depth : Nat) (e : Expr) (k l : List Char) :
    (e.toSparql depth).toList ++ k ≠ ')' :: l := by
  obtain ⟨c, rest, he, -, hc, -⟩ := e.exists_lead depth
  rw [he]
  intro h
  exact hc (List.cons.inj h).1

private theorem listReadable_nil : ListReadable [] := by
  intro depth ys k l _ h
  cases ys with
  | nil => exact ⟨rfl, by simpa [listToSparql] using h⟩
  | cons e rest =>
    rw [toList_listToSparql_cons] at h
    simp only [listToSparql, String.toList_empty, List.nil_append, List.append_assoc] at h
    exact absurd h.symm (toList_toSparql_ne_bracket _ _ _ _)

private theorem listReadable_cons {x : Expr} {xs : List Expr} (hx : x.Readable)
    (hxs : ListReadable xs) :
    ListReadable (x :: xs) := by
  intro depth ys k l hys h
  cases ys with
  | nil =>
    rw [toList_listToSparql_cons] at h
    simp only [listToSparql, String.toList_empty, List.nil_append, List.append_assoc] at h
    exact absurd h (toList_toSparql_ne_bracket _ _ _ _)
  | cons y ys =>
    rw [listTerms, List.forall_mem_append] at hys
    simp only [toList_listToSparql_cons, List.append_assoc] at h
    have hhead := hx hys.1 (by cases xs <;> simp [Text.endsTerm])
      (by cases ys <;> simp [Text.endsTerm]) h
    rw [listNormal, listNormal, hhead.1]
    cases xs with
    | nil =>
      cases ys with
      | nil => exact ⟨rfl, by simpa using hhead.2⟩
      | cons y' ys => simp at hhead
    | cons x' xs =>
      cases ys with
      | nil => simp at hhead
      | cons y' ys =>
        have htail := hxs hys.2 (by simpa using hhead.2)
        exact ⟨by rw [htail.1], htail.2⟩

private theorem readable_applied {f : Option Builtin} {xs : List Expr} (hxs : ListReadable xs) :
    (applied f xs).Readable := by
  intro depth y k l hy hk hl h
  have hshape : (applied f xs).shape = .applied := by cases f <;> rfl
  obtain ⟨f', ys, rfl⟩ := exists_applied_of_shape ((shape_eq h).symm.trans hshape)
  rw [terms_applied] at hy
  simp only [toList_applied, List.append_assoc, List.cons_append, List.nil_append] at h
  have hname := Text.cut_class (p := fun x => x ≠ '(')
    (by simpa using Builtin.bracket_not_mem_nameOf f)
    (by simpa using Builtin.bracket_not_mem_nameOf f') (by simp) (by simp) h
  have hargs := hxs hy (List.cons.inj hname.2).2
  have hf : f = f' := Builtin.nameOf_injective (String.toList_inj.1 hname.1)
  rw [normal_applied, normal_applied, hf, hargs.1]
  exact ⟨rfl, hargs.2⟩

end Expr

/-! ## Groups -/

/-- The lines of the group can be cut off at the line of the closing brace. -/
def Group.Readable (g : Group) : Prop :=
  ∀ ⦃depth : Nat⦄ ⦃g' : Group⦄ ⦃k l : List Char⦄, (∀ t ∈ Element.groupTerms g', t.WellFormed) →
    (Element.groupToSparql (depth + 1) g).toList ++ ((indentation depth).toList ++ '\x7d' :: k) =
      (Element.groupToSparql (depth + 1) g').toList ++
        ((indentation depth).toList ++ '\x7d' :: l) →
    Element.groupNormal g = Element.groupNormal g' ∧ k = l

/-- The element can be cut off at the end of its line. -/
def Element.Readable (e : Element) : Prop :=
  ∀ ⦃depth : Nat⦄ ⦃e' : Element⦄ ⦃k l : List Char⦄, (∀ t ∈ e'.terms, t.WellFormed) →
    (e.toSparql depth).toList ++ '\n' :: k = (e'.toSparql depth).toList ++ '\n' :: l →
    e.normal = e'.normal ∧ k = l

/-- The branches of a union can be cut off at the end of their line. -/
def Element.BranchesReadable (branches : List Group) : Prop :=
  ∀ ⦃depth : Nat⦄ ⦃branches' : List Group⦄ ⦃k l : List Char⦄,
    (∀ t ∈ Element.branchTerms branches', t.WellFormed) →
    (Element.branchesToSparql depth branches).toList ++ '\n' :: k =
      (Element.branchesToSparql depth branches').toList ++ '\n' :: l →
    Element.branchNormal branches = Element.branchNormal branches' ∧ k = l

theorem toList_braced (depth : Nat) (body : String) :
    (braced depth body).toList =
      '\x7b' :: '\n' :: (body.toList ++ ((indentation depth).toList ++ ['\x7d'])) := by
  simp [braced]

private theorem toList_indentation_succ (depth : Nat) :
    (indentation (depth + 1)).toList = (indentation depth).toList ++ [' ', ' '] := by
  have hdouble : 2 * (depth + 1) = 2 * depth + 2 := by omega
  simp [indentation, hdouble, ← List.replicate_append_replicate]

private theorem Group.Readable.braced {g : Group} (hg : g.Readable) {depth : Nat} {g' : Group}
    {k l : List Char} (hg' : ∀ t ∈ Element.groupTerms g', t.WellFormed)
    (h : (braced depth (Element.groupToSparql (depth + 1) g)).toList ++ k =
      (GraphPath.braced depth (Element.groupToSparql (depth + 1) g')).toList ++ l) :
    Element.groupNormal g = Element.groupNormal g' ∧ k = l := by
  simp only [toList_braced, List.cons_append, List.append_assoc, List.cons.injEq, true_and,
    List.nil_append] at h
  exact hg hg' h

private theorem Expr.readable_exist {g : Group} (hg : g.Readable) : (Expr.exist g).Readable := by
  intro depth y k l hy _ _ h
  obtain ⟨g', rfl⟩ := exists_exist_of_shape (shape_eq h).symm
  rw [terms] at hy
  simp only [toSparql, String.toList_append, List.append_assoc, List.append_cancel_left_eq] at h
  have hcut := hg.braced hy h
  exact ⟨by rw [normal, normal, hcut.1], hcut.2⟩

private theorem Group.readable_nil : Group.Readable [] := by
  intro depth g' k l _ h
  cases g' with
  | nil =>
    simp only [List.append_cancel_left_eq, List.cons.injEq, true_and] at h
    exact ⟨rfl, h⟩
  | cons e rest =>
    simp [Element.groupToSparql, toList_indentation_succ] at h

private theorem Group.readable_cons {e : Element} {g : Group} (he : e.Readable) (hg : g.Readable) :
    Group.Readable (e :: g) := by
  intro depth g' k l hg' h
  cases g' with
  | nil => simp [Element.groupToSparql, toList_indentation_succ] at h
  | cons e' rest =>
    rw [Element.groupTerms, List.forall_mem_append] at hg'
    simp only [Element.groupToSparql, String.toList_append, List.append_assoc,
      List.append_cancel_left_eq] at h
    have hhead := he hg'.1 h
    have htail := hg hg'.2 hhead.2
    rw [Element.groupNormal, Element.groupNormal, hhead.1, htail.1]
    exact ⟨rfl, htail.2⟩

private theorem Element.branchesReadable_nil : Element.BranchesReadable [] := by
  intro depth branches' k l _ h
  match branches' with
  | [] => exact ⟨rfl, (List.cons.inj h).2⟩
  | [g] => simp [branchesToSparql, toList_braced] at h
  | g :: g' :: rest => simp [branchesToSparql, toList_braced] at h

theorem Element.toList_branchesToSparql_cons (depth : Nat) (g : Group) (rest : List Group) :
    (branchesToSparql depth (g :: rest)).toList =
      (braced depth (groupToSparql (depth + 1) g)).toList ++
        match rest with
        | [] => []
        | _ :: _ => ' ' :: ("UNION ".toList ++ (branchesToSparql depth rest).toList) := by
  cases rest <;> simp [branchesToSparql]

private theorem Element.branchesReadable_cons {g : Group} {branches : List Group} (hg : g.Readable)
    (hbranches : BranchesReadable branches) : BranchesReadable (g :: branches) := by
  intro depth branches' k l hwell h
  cases branches' with
  | nil => simp [toList_branchesToSparql_cons, toList_braced, branchesToSparql] at h
  | cons g' branches' =>
    rw [branchTerms, List.forall_mem_append] at hwell
    simp only [toList_branchesToSparql_cons, List.append_assoc] at h
    have hhead := hg.braced hwell.1 h
    rw [branchNormal, branchNormal, hhead.1]
    cases branches with
    | nil =>
      cases branches' with
      | nil => exact ⟨rfl, by simpa using hhead.2⟩
      | cons g' rest => simp at hhead
    | cons g'' rest =>
      cases branches' with
      | nil => simp at hhead
      | cons g' rest' =>
        have htail := hbranches hwell.2 (by simpa using hhead.2)
        exact ⟨by rw [htail.1], htail.2⟩

/-- The forms that the line of an element can have. -/
inductive Element.Form where
  | triple
  | branches
  | optional
  | filter
  | bind
deriving DecidableEq

def Element.form : Element → Element.Form
  | .triple _ => .triple
  | .group _ => .branches
  | .union _ => .branches
  | .optional _ => .optional
  | .filter _ => .filter
  | .bind .. => .bind

/-- The form of the element whose line starts with the character. -/
def Element.Form.ofLead (c : Char) : Element.Form :=
  if c = '\x7b' ∨ c = '\n' then .branches
  else if c = 'O' then .optional
  else if c = 'F' then .filter
  else if c = 'B' then .bind
  else .triple

/-- The branches of a union; a nested group has itself as only branch. -/
def Element.branches : Element → List Group
  | .group inner => [inner]
  | .union branches => branches
  | _ => []

namespace Element

private theorem exists_lead (depth : Nat) (e : Element) (k : List Char) :
    ∃ c rest, (e.toSparql depth).toList ++ '\n' :: k = c :: rest ∧ Form.ofLead c = e.form := by
  match e with
  | .triple t =>
    obtain ⟨rest, hrest⟩ := t.subject.toList_render
    refine ⟨t.subject.lead, _, by simp [toSparql, TriplePattern.render, hrest]; rfl, ?_⟩
    rcases t.subject with v | i | a <;> rfl
  | .group inner => simp [toSparql, toList_braced, form, Form.ofLead]
  | .union [] => simp [toSparql, branchesToSparql, form, Form.ofLead]
  | .union (g :: rest) =>
    simp [toSparql, toList_branchesToSparql_cons, toList_braced, form, Form.ofLead]
  | .optional inner => simp [toSparql, form, Form.ofLead]
  | .filter e => simp [toSparql, form, Form.ofLead]
  | .bind e target => simp [toSparql, form, Form.ofLead]

private theorem form_eq {depth : Nat} {e e' : Element} {k l : List Char}
    (h : (e.toSparql depth).toList ++ '\n' :: k = (e'.toSparql depth).toList ++ '\n' :: l) :
    e.form = e'.form := by
  obtain ⟨c, rest, he, hform⟩ := e.exists_lead depth k
  obtain ⟨c', rest', he', hform'⟩ := e'.exists_lead depth l
  rw [he, he'] at h
  rw [← hform, ← hform', (List.cons.inj h).1]

theorem toSparql_of_branches {e : Element} (h : e.form = .branches) (depth : Nat) :
    e.toSparql depth = branchesToSparql depth e.branches := by
  cases e with
  | group inner => simp only [toSparql, branches, branchesToSparql]
  | union branches => simp only [toSparql, Element.branches]
  | _ => cases h

private theorem terms_of_branches {e : Element} (h : e.form = .branches) :
    e.terms = branchTerms e.branches := by
  cases e with
  | group inner => simp [terms, branches, branchTerms]
  | union branches => simp only [terms, Element.branches]
  | _ => cases h

private theorem normal_of_branches {e : Element} (h : e.form = .branches) :
    e.normal = .union (branchNormal e.branches) := by
  cases e with
  | group inner => simp only [normal, branches, branchNormal]
  | union branches => simp only [normal, Element.branches]
  | _ => cases h

private theorem readable_branches {e : Element} (hform : e.form = .branches)
    (he : BranchesReadable e.branches) : e.Readable := by
  intro depth e' k l hwell h
  have hform' : e'.form = .branches := (form_eq h).symm.trans hform
  rw [terms_of_branches hform'] at hwell
  rw [toSparql_of_branches hform, toSparql_of_branches hform'] at h
  have hcut := he hwell h
  rw [normal_of_branches hform, normal_of_branches hform', hcut.1]
  exact ⟨rfl, hcut.2⟩

private theorem readable_triple {t : TriplePattern}
    (ht : ∀ u ∈ [t.subject, t.predicate, t.object], u.WellFormed) : (triple t).Readable := by
  intro depth e' k l hwell h
  cases e' with
  | triple u =>
    simp only [terms, List.forall_mem_cons] at ht hwell
    simp only [toSparql, TriplePattern.render, String.toList_append, List.append_assoc] at h
    have hsubject := Term.cut ht.1 hwell.1 (by simp [Text.endsTerm]) (by simp [Text.endsTerm]) h
    have hpredicate := Term.cut ht.2.1 hwell.2.1 (by simp [Text.endsTerm])
      (by simp [Text.endsTerm]) (List.cons.inj hsubject.2).2
    have hobject := Term.cut ht.2.2.1 hwell.2.2.1 (by simp [Text.endsTerm])
      (by simp [Text.endsTerm]) (List.cons.inj hpredicate.2).2
    refine ⟨?_, by simpa using hobject.2⟩
    cases t
    cases u
    simp_all
  | _ => cases form_eq h

private theorem readable_optional {g : Group} (hg : g.Readable) : (optional g).Readable := by
  intro depth e' k l hwell h
  cases e' with
  | optional g' =>
    rw [terms] at hwell
    simp only [toSparql, String.toList_append, List.append_assoc, List.append_cancel_left_eq] at h
    have hcut := hg.braced hwell h
    exact ⟨by rw [normal, normal, hcut.1], (List.cons.inj hcut.2).2⟩
  | _ => cases form_eq h

private theorem readable_filter {x : Expr} (hx : x.Readable) : (filter x).Readable := by
  intro depth e' k l hwell h
  cases e' with
  | filter y =>
    rw [terms] at hwell
    simp only [toSparql, String.toList_append, List.append_assoc, List.append_cancel_left_eq] at h
    have hcut := hx hwell (by simp [Text.endsTerm]) (by simp [Text.endsTerm]) h
    exact ⟨by rw [normal, normal, hcut.1], by simpa using hcut.2⟩
  | _ => cases form_eq h

private theorem readable_bind {x : Expr} {v : Variable} (hx : x.Readable) (hv : v.WellNamed) :
    (bind x v).Readable := by
  intro depth e' k l hwell h
  cases e' with
  | bind y w =>
    rw [terms, List.forall_mem_append, List.forall_mem_singleton] at hwell
    simp only [toSparql, String.toList_append, List.append_assoc, List.append_cancel_left_eq] at h
    have hvalue := hx hwell.1 (by simp [Text.endsTerm]) (by simp [Text.endsTerm]) h
    have htarget := Variable.cut hv hwell.2 (by simp [Text.endsTerm]) (by simp [Text.endsTerm])
      (List.append_cancel_left hvalue.2)
    exact ⟨by rw [normal, normal, hvalue.1, htarget.1], by simpa using htarget.2⟩
  | _ => cases form_eq h

end Element

mutual

/-- The text of every expression with well-formed terms can be cut off, and so can its first
operand, which is what the negation of the expression asks for. -/
theorem Expr.readable {x : Expr} (hx : ∀ t ∈ x.terms, t.WellFormed) :
    x.Readable ∧ x.left.Readable := by
  cases x with
  | always => exact ⟨Expr.readable_always, Expr.readable_always⟩
  | term t =>
    have ht := Expr.readable_term (hx t (by simp [Expr.terms]))
    exact ⟨ht, ht⟩
  | not e =>
    rw [Expr.terms] at hx
    have he := Expr.readable hx
    have hnot := Expr.readable_not he.1 he.2
    exact ⟨hnot, hnot⟩
  | and l r =>
    rw [Expr.terms, List.forall_mem_append] at hx
    have hl := (Expr.readable hx.1).1
    exact ⟨Expr.readable_joined (c := .and) hl (Expr.readable hx.2).1, hl⟩
  | or l r =>
    rw [Expr.terms, List.forall_mem_append] at hx
    have hl := (Expr.readable hx.1).1
    exact ⟨Expr.readable_joined (c := .or) hl (Expr.readable hx.2).1, hl⟩
  | compare op l r =>
    rw [Expr.terms, List.forall_mem_append] at hx
    have hl := (Expr.readable hx.1).1
    exact ⟨Expr.readable_joined (c := .compare op) hl (Expr.readable hx.2).1, hl⟩
  | exist g =>
    rw [Expr.terms] at hx
    have hexist := Expr.readable_exist (Group.readable hx)
    exact ⟨hexist, hexist⟩
  | coalesce args =>
    rw [Expr.terms] at hx
    have happlied := Expr.readable_applied (f := none) (Expr.listReadable hx)
    exact ⟨happlied, happlied⟩
  | call function args =>
    rw [Expr.terms] at hx
    have happlied := Expr.readable_applied (f := some function) (Expr.listReadable hx)
    exact ⟨happlied, happlied⟩

private theorem Expr.listReadable {xs : List Expr} (hxs : ∀ t ∈ Expr.listTerms xs, t.WellFormed) :
    Expr.ListReadable xs := by
  cases xs with
  | nil => exact Expr.listReadable_nil
  | cons x xs =>
    rw [Expr.listTerms, List.forall_mem_append] at hxs
    exact Expr.listReadable_cons (Expr.readable hxs.1).1 (Expr.listReadable hxs.2)

private theorem Element.readable {e : Element} (he : ∀ t ∈ e.terms, t.WellFormed) : e.Readable := by
  cases e with
  | triple t =>
    rw [Element.terms] at he
    exact Element.readable_triple he
  | group inner =>
    rw [Element.terms] at he
    exact Element.readable_branches rfl
      (Element.branchesReadable_cons (Group.readable he) Element.branchesReadable_nil)
  | union branches =>
    rw [Element.terms] at he
    exact Element.readable_branches rfl (Element.branchesReadable he)
  | optional inner =>
    rw [Element.terms] at he
    exact Element.readable_optional (Group.readable he)
  | filter x =>
    rw [Element.terms] at he
    exact Element.readable_filter (Expr.readable he).1
  | bind x v =>
    rw [Element.terms, List.forall_mem_append, List.forall_mem_singleton] at he
    exact Element.readable_bind (Expr.readable he.1).1 he.2

private theorem Group.readable {g : List Element} (hg : ∀ t ∈ Element.groupTerms g, t.WellFormed) :
    Group.Readable g := by
  cases g with
  | nil => exact Group.readable_nil
  | cons e g =>
    rw [Element.groupTerms, List.forall_mem_append] at hg
    exact Group.readable_cons (Element.readable hg.1) (Group.readable hg.2)

private theorem Element.branchesReadable {branches : List (List Element)}
    (h : ∀ t ∈ Element.branchTerms branches, t.WellFormed) :
    Element.BranchesReadable branches := by
  cases branches with
  | nil => exact Element.branchesReadable_nil
  | cons g rest =>
    rw [Element.branchTerms, List.forall_mem_append] at h
    exact Element.branchesReadable_cons (Group.readable h.1) (Element.branchesReadable h.2)

end

/-! ## Queries -/

private theorem Text.cut_number {m n : Nat} {k l : List Char} (hk : Ended k) (hl : Ended l)
    (h : (toString m).toList ++ k = (toString n).toList ++ l) : m = n ∧ k = l := by
  have hclass : ∀ c, endsTerm c = true → c.isDigit = false := by
    intro c hc
    simp only [endsTerm, Bool.or_eq_true, decide_eq_true_eq] at hc
    rcases hc with ((rfl | rfl) | rfl) | rfl <;> decide
  have hdigits : ∀ i : Nat, ∀ c ∈ Nat.toDigits 10 i, c.isDigit = true := by
    intro i c hc
    exact Nat.isDigit_of_mem_toDigits (by decide) (by decide) hc
  simp only [Nat.toString_eq_repr, Nat.toList_repr] at h
  have hcut := cut_class (hdigits m) (hdigits n) (hk.not_class hclass) (hl.not_class hclass) h
  have hvalue := congrArg (fun digits => Nat.ofDigitChars 10 digits 0) hcut.1
  exact ⟨by simpa using hvalue, hcut.2⟩

private theorem OrderKey.cut {a b : OrderKey} (ha : a.target.WellNamed) (hb : b.target.WellNamed)
    {k l : List Char} (h : a.toSparql.toList ++ k = b.toSparql.toList ++ l) : a = b ∧ k = l := by
  obtain ⟨v, direction⟩ := a
  obtain ⟨w, direction'⟩ := b
  have hdirection : direction = direction' := by
    cases direction <;> cases direction' <;> simp_all [toSparql, Direction.name]
  subst hdirection
  simp only [toSparql, String.toList_append, List.append_assoc, List.append_cancel_left_eq] at h
  have hcut := Variable.cut ha hb (by simp [Text.endsTerm]) (by simp [Text.endsTerm]) h
  exact ⟨by simpa using hcut.1, (List.cons.inj hcut.2).2⟩

/-- The text is empty or goes on with a new line. -/
def Text.EndsLine (k : List Char) : Prop := k = [] ∨ ∃ rest, k = '\n' :: rest

private theorem OrderKey.cut_all {a b : OrderKey} {as bs : List OrderKey}
    (ha : ∀ x ∈ a :: as, x.target.WellNamed) (hb : ∀ x ∈ b :: bs, x.target.WellNamed)
    {k l : List Char} (hk : Text.EndsLine k) (hl : Text.EndsLine l)
    (h : (" ".intercalate ((a :: as).map toSparql)).toList ++ k =
      (" ".intercalate ((b :: bs).map toSparql)).toList ++ l) : a :: as = b :: bs ∧ k = l := by
  rw [List.forall_mem_cons] at ha hb
  induction as generalizing a b bs with
  | nil =>
    cases bs with
    | nil =>
      have hcut := OrderKey.cut ha.1 hb.1 (by simpa using h)
      exact ⟨by rw [hcut.1], hcut.2⟩
    | cons b' bs =>
      have hcut := OrderKey.cut (k := k) ha.1 hb.1 (by simpa using h)
      rcases hk with rfl | ⟨rest, rfl⟩ <;> simp at hcut
  | cons a' as ih =>
    cases bs with
    | nil =>
      have hcut := OrderKey.cut (l := l) ha.1 hb.1 (by simpa using h)
      rcases hl with rfl | ⟨rest, rfl⟩ <;> simp at hcut
    | cons b' bs =>
      simp only [List.map_cons, String.intercalate_cons_cons, String.toList_append,
        List.append_assoc] at h
      have hhead := OrderKey.cut ha.1 hb.1 h
      have htail := ih (List.forall_mem_cons.1 ha.2) (List.forall_mem_cons.1 hb.2)
        (List.append_cancel_left hhead.2)
      exact ⟨by rw [hhead.1, htail.1], htail.2⟩

namespace Query

/-- The terms in a query, as often as they stand there. -/
def terms (q : Query) : List Term :=
  .var q.projection :: (q.graph.toList.map .iri ++ (Element.groupTerms q.pattern ++
    q.orderBy.map fun k => .var k.target))

/-- The query with every nested group as a union of one branch. -/
def normal (q : Query) : Query := { q with pattern := Element.groupNormal q.pattern }

private theorem toSparql_normal (q : Query) : q.normal.toSparql = q.toSparql := by
  unfold toSparql
  simp only [normal, orderClause, Element.groupToSparql_normal]
  rfl

/-! The parts of the text, one after the other. -/

def selection (q : Query) : List Char :=
  (if q.distinct then "DISTINCT ".toList else []) ++ q.projection.render.toList

def origin (q : Query) : List Char :=
  match q.graph with
  | none => []
  | some graph => "FROM ".toList ++ (graph.render.toList ++ ['\n'])

def limitLine (q : Query) : List Char :=
  match q.limit with
  | none => []
  | some n => "\nLIMIT ".toList ++ (toString n).toList

def offsetLine (q : Query) : List Char :=
  match q.offset with
  | none => []
  | some n => "\nOFFSET ".toList ++ (toString n).toList

theorem toList_toSparql (q : Query) :
    q.toSparql.toList = "SELECT ".toList ++ (q.selection ++ '\n' :: (q.origin ++
      ("WHERE ".toList ++ ((braced 0 (Element.groupToSparql 1 q.pattern)).toList ++
        (q.orderClause.toList ++ (q.limitLine ++ q.offsetLine)))))) := by
  unfold toSparql selection origin limitLine offsetLine
  cases q.distinct <;> cases q.graph <;> cases q.limit <;> cases q.offset <;> simp

private theorem cut_selection {q q' : Query} (hq : q.projection.WellNamed)
    (hq' : q'.projection.WellNamed) {k l : List Char}
    (h : q.selection ++ '\n' :: k = q'.selection ++ '\n' :: l) :
    q.distinct = q'.distinct ∧ q.projection = q'.projection ∧ k = l := by
  have hdistinct : q.distinct = q'.distinct := by
    cases hd : q.distinct <;> cases hd' : q'.distinct <;>
      simp_all [selection, Variable.render]
  refine ⟨hdistinct, ?_⟩
  simp only [selection, hdistinct, List.append_assoc, List.append_cancel_left_eq] at h
  have hcut := Variable.cut hq hq' (by simp [Text.endsTerm]) (by simp [Text.endsTerm]) h
  exact ⟨hcut.1, (List.cons.inj hcut.2).2⟩

private theorem cut_origin {q q' : Query} (hq : ∀ i ∈ q.graph, i.WellFormed)
    (hq' : ∀ i ∈ q'.graph, i.WellFormed) {k l : List Char}
    (h : q.origin ++ ("WHERE ".toList ++ k) = q'.origin ++ ("WHERE ".toList ++ l)) :
    q.graph = q'.graph ∧ k = l := by
  unfold origin at h
  cases hgraph : q.graph with
  | none =>
    cases hgraph' : q'.graph with
    | none => simpa [hgraph, hgraph'] using h
    | some j => simp [hgraph, hgraph'] at h
  | some i =>
    cases hgraph' : q'.graph with
    | none => simp [hgraph, hgraph'] at h
    | some j =>
      simp only [hgraph, hgraph', List.append_assoc, List.append_cancel_left_eq] at h
      have hcut := Iri.cut (hq i hgraph) (hq' j hgraph') h
      exact ⟨by rw [hcut.1], by simpa using hcut.2⟩

private theorem endsLine_limitLine (q : Query) : Text.EndsLine (q.limitLine ++ q.offsetLine) := by
  unfold limitLine offsetLine
  cases q.limit <;> cases q.offset <;> simp [Text.EndsLine]

private theorem cut_orderClause {q q' : Query} (hq : ∀ k ∈ q.orderBy, k.target.WellNamed)
    (hq' : ∀ k ∈ q'.orderBy, k.target.WellNamed)
    (h : q.orderClause.toList ++ (q.limitLine ++ q.offsetLine) =
      q'.orderClause.toList ++ (q'.limitLine ++ q'.offsetLine)) :
    q.orderBy = q'.orderBy ∧ q.limitLine ++ q.offsetLine = q'.limitLine ++ q'.offsetLine := by
  have hne : ∀ (p : Query) (rest : List Char),
      p.limitLine ++ p.offsetLine ≠ "\nORDER BY ".toList ++ rest := by
    intro p rest
    unfold limitLine offsetLine
    cases p.limit <;> cases p.offset <;> simp
  unfold orderClause at h
  cases horder : q.orderBy with
  | nil =>
    cases horder' : q'.orderBy with
    | nil => simpa [horder, horder'] using h
    | cons b bs =>
      simp only [horder, horder', List.isEmpty_nil, if_true, List.isEmpty_cons, Bool.false_eq_true,
        if_false, String.toList_empty, List.nil_append, String.toList_append,
        List.append_assoc] at h
      exact absurd h (hne q _)
  | cons a as =>
    cases horder' : q'.orderBy with
    | nil =>
      simp only [horder, horder', List.isEmpty_nil, if_true, List.isEmpty_cons, Bool.false_eq_true,
        if_false, String.toList_empty, List.nil_append, String.toList_append,
        List.append_assoc] at h
      exact absurd h.symm (hne q' _)
    | cons b bs =>
      simp only [horder, horder', List.isEmpty_cons, Bool.false_eq_true, if_false,
        String.toList_append, List.append_assoc, List.append_cancel_left_eq] at h
      exact OrderKey.cut_all (horder ▸ hq) (horder' ▸ hq') q.endsLine_limitLine
        q'.endsLine_limitLine h

private theorem offset_eq {q q' : Query} (h : q.offsetLine = q'.offsetLine) :
    q.offset = q'.offset := by
  unfold offsetLine at h
  cases hoffset : q.offset <;> cases hoffset' : q'.offset <;> simp [hoffset, hoffset'] at h ⊢
  next m n => exact (Text.cut_number (k := []) (l := []) (by simp) (by simp) (by simpa using h)).1

private theorem cut_limitLine {q q' : Query}
    (h : q.limitLine ++ q.offsetLine = q'.limitLine ++ q'.offsetLine) :
    q.limit = q'.limit ∧ q.offset = q'.offset := by
  have hended : ∀ p : Query, Text.Ended p.offsetLine := by
    intro p
    unfold offsetLine
    cases p.offset <;> simp [Text.endsTerm]
  have hne : ∀ (p : Query) (rest : List Char), p.offsetLine ≠ "\nLIMIT ".toList ++ rest := by
    intro p rest
    unfold offsetLine
    cases p.offset <;> simp
  unfold limitLine at h
  cases hlimit : q.limit with
  | none =>
    cases hlimit' : q'.limit with
    | none => exact ⟨rfl, offset_eq (by simpa [hlimit, hlimit'] using h)⟩
    | some n =>
      simp only [hlimit, hlimit', List.nil_append, List.append_assoc] at h
      exact absurd h (hne q _)
  | some m =>
    cases hlimit' : q'.limit with
    | none =>
      simp only [hlimit, hlimit', List.nil_append, List.append_assoc] at h
      exact absurd h.symm (hne q' _)
    | some n =>
      simp only [hlimit, hlimit', List.append_assoc, List.append_cancel_left_eq] at h
      have hcut := Text.cut_number (hended q) (hended q') h
      exact ⟨by rw [hcut.1], offset_eq hcut.2⟩

/-- Queries with well-formed terms have the same text exactly if they are the same, with nested
groups taken as unions of one branch. -/
theorem toSparql_eq_iff {q q' : Query} (hq : ∀ t ∈ q.terms, t.WellFormed)
    (hq' : ∀ t ∈ q'.terms, t.WellFormed) :
    q.toSparql = q'.toSparql ↔ q.normal = q'.normal := by
  constructor
  · intro htext
    have h := congrArg String.toList htext
    simp only [terms, List.forall_mem_cons, List.forall_mem_append, List.forall_mem_map] at hq hq'
    simp only [toList_toSparql, List.append_cancel_left_eq] at h
    have hselection := cut_selection hq.1 hq'.1 h
    have horigin := cut_origin (by simpa [Term.iri, Term.WellFormed] using hq.2.1)
      (by simpa [Term.iri, Term.WellFormed] using hq'.2.1) hselection.2.2
    have hpattern := (Group.readable hq.2.2.1).braced hq'.2.2.1 horigin.2
    have horder := cut_orderClause hq.2.2.2 hq'.2.2.2 hpattern.2
    have hlimit := cut_limitLine horder.2
    obtain ⟨v, graph, pattern, keys, limit, offset, distinct⟩ := q
    obtain ⟨v', graph', pattern', keys', limit', offset', distinct'⟩ := q'
    simp_all [normal]
  · intro h
    rw [← q.toSparql_normal, h, q'.toSparql_normal]

/-- A nested group with the text of a union, and one branch more with another text; the values
contain the characters that delimit literals, groups and lines. -/
theorem toSparql_eq_iff_nested :
    let x : Term := .var ⟨"x"⟩
    let value : Term := .literal ⟨"a\" .\n\x7d", none, some ⟨"http://e/d"⟩⟩
    let inner : Group := [.ofTriple x (.iri ⟨"http://e/p"⟩) value,
      .filter (.not (.not (.compare .eq (.term x) (.term (.literal ⟨"b", some "en", none⟩)))))]
    let query (pattern : Group) : Query := { projection := ⟨"x"⟩, pattern, limit := some 3 }
    (query [.group inner]).toSparql = (query [.union [inner]]).toSparql ∧
      (query [.group inner]).toSparql ≠ (query [.union [inner, []]]).toSparql := by
  intro x value inner query
  have hgroup : ∀ t ∈ (query [.group inner]).terms, t.WellFormed := by decide +kernel
  have hunion : ∀ t ∈ (query [.union [inner]]).terms, t.WellFormed := by decide +kernel
  have hbranches : ∀ t ∈ (query [.union [inner, []]]).terms, t.WellFormed := by decide +kernel
  refine ⟨(toSparql_eq_iff hgroup hunion).2 rfl, ?_⟩
  rw [Ne, toSparql_eq_iff hgroup hbranches]
  simp [query, normal, Element.groupNormal, Element.normal, Element.branchNormal]

end Query

end GraphPath
