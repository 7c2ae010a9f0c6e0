import GraphPath.Proofs.Tokens

/-!
# Tokens of queries

In the text of a query each term is one token, if its variables are well named and its literals have
the form of a token. The other tokens are those of the structure of the query, so that they do not
depend on the terms.
-/

namespace GraphPath

open Sparql

def Term.token : Term → Token
  | .var v => .var v.render.toList
  | .node (.iri i) => .reference i.render.toList
  | .node (.literal l) => .literal l.render.toList

/-- The text of the term is one token. -/
def Term.IsToken : Term → Prop
  | .var v => v.WellNamed
  | .node (.iri _) => True
  | .node (.literal l) => IsLiteral l.render.toList

theorem Iri.isReference_render (i : Iri) : IsReference i.render.toList :=
  ⟨i.encoded.text.toList, i.not_forbidden_encoded, i.toList_render⟩

private theorem Term.tokens_render {t : Term} (ht : t.IsToken) {k : List Char} (hk : Text.Ended k) :
    tokens (t.render.toList ++ k) = t.token :: tokens k := by
  rcases t with v | i | l
  · exact tokens_var ht hk
  · exact tokens_reference i.isReference_render k
  · exact tokens_literal ht hk

/-- The tokens of the negation of a condition with the given tokens. -/
def negatedTokens (e : Expr) (ts : List Token) : List Token :=
  match e with
  | .exist _ => keyword "NOT" :: ts
  | .not _ => .symbol ['!'] :: bracketed ts
  | _ => .symbol ['!'] :: ts

mutual

def Expr.tokens : Expr → List Token
  | .always => [keyword "true"]
  | .term t => [t.token]
  | .not e => negatedTokens e e.tokens
  | .and l r => bracketed (l.tokens ++ .symbol ['&', '&'] :: r.tokens)
  | .or l r => bracketed (l.tokens ++ .symbol ['|', '|'] :: r.tokens)
  | .compare op l r => bracketed (l.tokens ++ .symbol op.symbol.toList :: r.tokens)
  | .exist scope => keyword "EXISTS" :: inBraces (Element.groupTokens scope)
  | .coalesce args => keyword "COALESCE" :: bracketed (Expr.listTokens args)
  | .call function args => keyword function.name :: bracketed (Expr.listTokens args)

def Expr.listTokens : List Expr → List Token
  | [] => []
  | [e] => e.tokens
  | e :: rest => e.tokens ++ .symbol [','] :: Expr.listTokens rest

def Element.tokens : Element → List Token
  | .triple t => [t.subject.token, t.predicate.token, t.object.token, .symbol ['.']]
  | .group inner => inBraces (Element.groupTokens inner)
  | .union branches => Element.branchTokens branches
  | .optional inner => keyword "OPTIONAL" :: inBraces (Element.groupTokens inner)
  | .filter e => keyword "FILTER" :: bracketed e.tokens
  | .bind e target =>
    keyword "BIND" :: bracketed (e.tokens ++ [keyword "AS", .var target.render.toList])

def Element.groupTokens : List Element → List Token
  | [] => []
  | e :: rest => e.tokens ++ Element.groupTokens rest

def Element.branchTokens : List (List Element) → List Token
  | [] => []
  | [g] => inBraces (Element.groupTokens g)
  | g :: rest => inBraces (Element.groupTokens g) ++ keyword "UNION" :: Element.branchTokens rest

end

namespace Expr

/-- The text of the expression has its tokens, whatever follows the expression. -/
def Tokenized (e : Expr) : Prop :=
  ∀ ⦃depth : Nat⦄ ⦃k : List Char⦄, Text.Ended k →
    Sparql.tokens ((e.toSparql depth).toList ++ k) = e.tokens ++ Sparql.tokens k

end Expr

/-- The lines of the group have its tokens, whatever follows them. -/
def Group.Tokenized (g : Group) : Prop :=
  ∀ (depth : Nat) (k : List Char),
    Sparql.tokens ((Element.groupToSparql depth g).toList ++ k) =
      Element.groupTokens g ++ Sparql.tokens k

namespace Expr

private theorem tokenized_always : Expr.always.Tokenized := by
  intro depth k hk
  have htext : (toSparql depth .always).toList = "true".toList := by simp [toSparql]
  rw [htext, tokens_word (by decide)
    (hk.not_class fun _ => Text.isVariableChar_of_endsTerm), tokens]
  rfl

private theorem tokenized_term {t : Term} (ht : t.IsToken) : (Expr.term t).Tokenized :=
  fun _ _ hk => t.tokens_render ht hk

private theorem tokens_joined (c : Connective) (l r : Expr) :
    (joined c l r).tokens = bracketed (l.tokens ++ .symbol c.symbol.toList :: r.tokens) := by
  cases c <;> simp only [joined, tokens, Connective.symbol] <;> rfl

private theorem tokenized_joined {c : Connective} {l r : Expr} (hl : l.Tokenized)
    (hr : r.Tokenized) :
    (joined c l r).Tokenized := by
  intro depth k hk
  rw [tokens_joined, toList_joined, List.cons_append]
  simp only [List.append_assoc, List.cons_append, List.nil_append]
  rw [tokens_bracket rfl, hl (by simp [Text.endsTerm]), tokens_blank, tokens_connective,
    hr (by simp [Text.endsTerm]), tokens_bracket rfl]
  simp [bracketed]

private theorem tokenized_exist {scope : Group} (h : scope.Tokenized) :
    (Expr.exist scope).Tokenized := by
  intro depth k hk
  have htext : ((Expr.exist scope).toSparql depth).toList = "EXISTS".toList ++
      ' ' :: (braced depth (Element.groupToSparql (depth + 1) scope)).toList := by
    simp [toSparql]
  rw [htext, List.append_assoc, List.cons_append, tokens_keyword_blank (by decide),
    tokens_braced (h (depth + 1)), tokens]
  rfl

private theorem tokenized_not {e : Expr} (he : e.Tokenized) : (Expr.not e).Tokenized := by
  intro depth k hk
  rw [tokens]
  by_cases hexist : e.shape = .existence
  · obtain ⟨scope, rfl⟩ := exists_exist_of_shape hexist
    rw [toList_absence, List.append_assoc, tokens_spaced "NOT " "NOT" (by simp) (by decide), he hk]
    rfl
  · rw [toList_negation depth hexist, List.cons_append]
    cases hnot : e.isNot with
    | true =>
      have hmore : negatedTokens e e.tokens = .symbol ['!'] :: bracketed e.tokens := by
        cases e with
        | not e => rfl
        | _ => cases hnot
      rw [hmore, if_pos rfl, List.cons_append, List.append_assoc, List.cons_append, List.nil_append,
        tokens_symbol rfl (outcome_reference_of_ne (by decide) _) (by simp [doubled]),
        tokens_bracketed fun _ hended => he hended]
      rfl
    | false =>
      have hmore : negatedTokens e e.tokens = .symbol ['!'] :: e.tokens := by
        cases e with
        | exist scope => exact absurd rfl hexist
        | not e => cases hnot
        | _ => rfl
      obtain ⟨c, rest, htext, -, -, hc⟩ := e.exists_lead depth
      rw [hmore, if_neg Bool.false_ne_true, tokens_symbol rfl
        (outcome_reference_of_ne (by decide) _) (by simp [htext, doubled, hc]), he hk]
      rfl

/-- The text of the arguments has their tokens. -/
def ListTokenized (args : List Expr) : Prop :=
  ∀ ⦃depth : Nat⦄ ⦃k : List Char⦄, Text.Ended k →
    Sparql.tokens ((listToSparql depth args).toList ++ k) = listTokens args ++ Sparql.tokens k

private theorem listTokenized_cons {e : Expr} {rest : List Expr} (he : e.Tokenized)
    (hrest : ListTokenized rest) : ListTokenized (e :: rest) := by
  intro depth k hk
  rw [toList_listToSparql_cons, List.append_assoc]
  cases rest with
  | nil => exact he hk
  | cons e' rest =>
    rw [listTokens, List.cons_append, List.cons_append, he (by simp [Text.endsTerm]),
      tokens_bracket rfl, tokens_blank, hrest hk, List.append_assoc, List.cons_append]
    exact List.cons_ne_nil e' rest

private theorem tokens_applied (f : Option Builtin) (args : List Expr) :
    (applied f args).tokens = keyword (Builtin.nameOf f) :: bracketed (listTokens args) := by
  cases f <;> simp only [applied, tokens, Builtin.nameOf]

private theorem tokenized_applied {f : Option Builtin} {args : List Expr} (h : ListTokenized args) :
    (applied f args).Tokenized := by
  intro depth k hk
  have hname : isWord (Builtin.nameOf f).toList = true := by
    rcases f with _ | f
    · decide
    · cases f <;> decide
  rw [tokens_applied, toList_applied, List.append_assoc, List.cons_append, List.append_assoc,
    List.cons_append, List.nil_append, tokens_keyword_bracket hname,
    tokens_bracketed fun _ hended => h hended]
  rfl

end Expr

namespace Element

/-- The text of the element has its tokens, whatever the next line is. -/
def Tokenized (e : Element) : Prop :=
  ∀ (depth : Nat) (k : List Char),
    Sparql.tokens ((e.toSparql depth).toList ++ '\n' :: k) = e.tokens ++ Sparql.tokens k

private theorem tokenized_triple {t : TriplePattern}
    (ht : ∀ u ∈ [t.subject, t.predicate, t.object], u.IsToken) : (Element.triple t).Tokenized := by
  intro depth k
  simp only [List.forall_mem_cons, List.not_mem_nil, false_imp_iff, implies_true, and_true] at ht
  have htext : ((Element.triple t).toSparql depth).toList = t.subject.render.toList ++
      ' ' :: (t.predicate.render.toList ++ ' ' :: (t.object.render.toList ++ [' ', '.'])) := by
    simp [toSparql, TriplePattern.render]
  rw [htext]
  simp only [List.append_assoc, List.cons_append, List.nil_append]
  rw [t.subject.tokens_render ht.1 (by simp [Text.endsTerm]), tokens_blank,
    t.predicate.tokens_render ht.2.1 (by simp [Text.endsTerm]), tokens_blank,
    t.object.tokens_render ht.2.2 (by simp [Text.endsTerm]), tokens_blank, tokens_bracket rfl,
    tokens_newline, tokens]
  rfl

/-- The text of the branches has their tokens. -/
def BranchesTokenized (branches : List Group) : Prop :=
  ∀ (depth : Nat) (k : List Char),
    Sparql.tokens ((branchesToSparql depth branches).toList ++ k) =
      branchTokens branches ++ Sparql.tokens k

private theorem branchesTokenized_nil : BranchesTokenized [] := by
  intro depth k
  simp [branchesToSparql, branchTokens]

private theorem branchesTokenized_cons {g : Group} {rest : List Group} (hg : g.Tokenized)
    (hrest : BranchesTokenized rest) : BranchesTokenized (g :: rest) := by
  intro depth k
  rw [toList_branchesToSparql_cons, List.append_assoc, tokens_braced (hg (depth + 1))]
  cases rest with
  | nil => simp [branchTokens]
  | cons g' rest =>
    rw [branchTokens, List.cons_append, tokens_blank, List.append_assoc,
      tokens_spaced "UNION " "UNION" (by simp) (by decide), hrest, List.append_assoc,
      List.cons_append]
    exact List.cons_ne_nil g' rest

private theorem tokens_of_branches {e : Element} (h : e.form = .branches) :
    e.tokens = branchTokens e.branches := by
  cases e with
  | group inner => simp only [tokens, branches, branchTokens]
  | union branches => simp only [tokens, Element.branches]
  | _ => cases h

private theorem tokenized_branches {e : Element} (h : e.form = .branches)
    (hbranches : BranchesTokenized e.branches) : e.Tokenized := by
  intro depth k
  rw [toSparql_of_branches h, hbranches, tokens_newline, tokens_of_branches h]

private theorem tokenized_optional {inner : Group} (h : inner.Tokenized) :
    (Element.optional inner).Tokenized := by
  intro depth k
  have htext : ((Element.optional inner).toSparql depth).toList = "OPTIONAL".toList ++
      ' ' :: (braced depth (groupToSparql (depth + 1) inner)).toList := by
    simp [toSparql]
  rw [htext, List.append_assoc, List.cons_append, tokens_keyword_blank (by decide),
    tokens_braced (h (depth + 1)), tokens_newline, tokens]
  rfl

private theorem tokenized_filter {e : Expr} (he : e.Tokenized) : (Element.filter e).Tokenized := by
  intro depth k
  have htext : ((Element.filter e).toSparql depth).toList = "FILTER".toList ++
      '(' :: ((e.toSparql depth).toList ++ [')']) := by
    simp [toSparql]
  rw [htext, List.append_assoc, List.cons_append, List.append_assoc, List.cons_append,
    List.nil_append, tokens_keyword_bracket (by decide),
    tokens_bracketed fun _ hended => he hended, tokens_newline, tokens]
  rfl

private theorem tokenized_bind {e : Expr} {target : Variable} (he : e.Tokenized)
    (htarget : target.WellNamed) : (Element.bind e target).Tokenized := by
  intro depth k
  have htext : ((Element.bind e target).toSparql depth).toList = "BIND".toList ++
      '(' :: ((e.toSparql depth).toList ++
        ' ' :: ("AS".toList ++ ' ' :: (target.render.toList ++ [')']))) := by
    simp [toSparql]
  rw [htext]
  simp only [List.append_assoc, List.cons_append, List.nil_append]
  rw [tokens_keyword_bracket (by decide), tokens_bracket rfl,
    he (by simp [Text.endsTerm]), tokens_blank, tokens_keyword_blank (by decide),
    tokens_var htarget (by simp [Text.endsTerm]), tokens_bracket rfl, tokens_newline, tokens]
  simp [bracketed]

end Element

private theorem Group.tokenized_nil : Group.Tokenized [] := by
  intro depth k
  simp [Element.groupToSparql, Element.groupTokens]

private theorem Group.tokenized_cons {e : Element} {g : Group} (he : e.Tokenized)
    (hg : g.Tokenized) :
    Group.Tokenized (e :: g) := by
  intro depth k
  have htext : (Element.groupToSparql depth (e :: g)).toList = (indentation depth).toList ++
      ((e.toSparql depth).toList ++ '\n' :: (Element.groupToSparql depth g).toList) := by
    simp [Element.groupToSparql]
  rw [htext, List.append_assoc, List.append_assoc, List.cons_append, tokens_indentation, he, hg,
    Element.groupTokens, List.append_assoc]

mutual

private theorem Expr.tokenized {e : Expr} (he : ∀ t ∈ e.terms, t.IsToken) : e.Tokenized := by
  cases e with
  | always => exact Expr.tokenized_always
  | term t => exact Expr.tokenized_term (he t (by simp [Expr.terms]))
  | not e =>
    rw [Expr.terms] at he
    exact Expr.tokenized_not (Expr.tokenized he)
  | and l r =>
    rw [Expr.terms, List.forall_mem_append] at he
    exact Expr.tokenized_joined (c := .and) (Expr.tokenized he.1) (Expr.tokenized he.2)
  | or l r =>
    rw [Expr.terms, List.forall_mem_append] at he
    exact Expr.tokenized_joined (c := .or) (Expr.tokenized he.1) (Expr.tokenized he.2)
  | compare op l r =>
    rw [Expr.terms, List.forall_mem_append] at he
    exact Expr.tokenized_joined (c := .compare op) (Expr.tokenized he.1) (Expr.tokenized he.2)
  | exist scope =>
    rw [Expr.terms] at he
    exact Expr.tokenized_exist (Group.tokenized he)
  | coalesce args =>
    rw [Expr.terms] at he
    exact Expr.tokenized_applied (f := none) (Expr.listTokenized he)
  | call function args =>
    rw [Expr.terms] at he
    exact Expr.tokenized_applied (f := some function) (Expr.listTokenized he)

private theorem Expr.listTokenized {args : List Expr} (h : ∀ t ∈ Expr.listTerms args, t.IsToken) :
    Expr.ListTokenized args := by
  cases args with
  | nil => exact fun _ _ _ => rfl
  | cons e rest =>
    rw [Expr.listTerms, List.forall_mem_append] at h
    exact Expr.listTokenized_cons (Expr.tokenized h.1) (Expr.listTokenized h.2)

private theorem Element.tokenized {e : Element} (he : ∀ t ∈ e.terms, t.IsToken) : e.Tokenized := by
  cases e with
  | triple t =>
    rw [Element.terms] at he
    exact Element.tokenized_triple he
  | group inner =>
    rw [Element.terms] at he
    exact Element.tokenized_branches rfl
      (Element.branchesTokenized_cons (Group.tokenized he) Element.branchesTokenized_nil)
  | union branches =>
    rw [Element.terms] at he
    exact Element.tokenized_branches rfl (Element.branchesTokenized he)
  | optional inner =>
    rw [Element.terms] at he
    exact Element.tokenized_optional (Group.tokenized he)
  | filter e =>
    rw [Element.terms] at he
    exact Element.tokenized_filter (Expr.tokenized he)
  | bind e target =>
    rw [Element.terms, List.forall_mem_append, List.forall_mem_singleton] at he
    exact Element.tokenized_bind (Expr.tokenized he.1) he.2

private theorem Group.tokenized {g : List Element} (hg : ∀ t ∈ Element.groupTerms g, t.IsToken) :
    Group.Tokenized g := by
  cases g with
  | nil => exact Group.tokenized_nil
  | cons e g =>
    rw [Element.groupTerms, List.forall_mem_append] at hg
    exact Group.tokenized_cons (Element.tokenized hg.1) (Group.tokenized hg.2)

private theorem Element.branchesTokenized {branches : List (List Element)}
    (h : ∀ t ∈ Element.branchTerms branches, t.IsToken) : Element.BranchesTokenized branches := by
  cases branches with
  | nil => exact Element.branchesTokenized_nil
  | cons g rest =>
    rw [Element.branchTerms, List.forall_mem_append] at h
    exact Element.branchesTokenized_cons (Group.tokenized h.1) (Element.branchesTokenized h.2)

end

def OrderKey.tokens (k : OrderKey) : List Token :=
  keyword k.direction.name :: bracketed [.var k.target.render.toList]

private theorem OrderKey.tokens_toSparql {key : OrderKey} (h : key.target.WellNamed)
    (k : List Char) :
    Sparql.tokens (key.toSparql.toList ++ k) = key.tokens ++ Sparql.tokens k := by
  have hname : isWord key.direction.name.toList = true := by
    cases key.direction <;> decide
  have htext : key.toSparql.toList = key.direction.name.toList ++
      '(' :: (key.target.render.toList ++ [')']) := by
    simp [toSparql]
  have hvar : ∀ ⦃k⦄, Text.Ended k → Sparql.tokens (key.target.render.toList ++ k) =
      [.var key.target.render.toList] ++ Sparql.tokens k := fun _ hk => tokens_var h hk
  rw [htext]
  simp only [List.append_assoc, List.cons_append, List.nil_append]
  rw [tokens_keyword_bracket hname, tokens_bracketed hvar]
  rfl

private theorem OrderKey.tokens_all {keys : List OrderKey} (h : ∀ key ∈ keys, key.target.WellNamed)
    (k : List Char) :
    Sparql.tokens ((" ".intercalate (keys.map OrderKey.toSparql)).toList ++ k) =
      keys.flatMap OrderKey.tokens ++ Sparql.tokens k := by
  induction keys with
  | nil => simp
  | cons key keys ih =>
    rw [List.forall_mem_cons] at h
    cases keys with
    | nil => simpa using tokens_toSparql h.1 k
    | cons key' keys =>
      have hblank : " ".toList = [' '] := by simp
      rw [List.map_cons, List.map_cons, String.intercalate_cons_cons, String.toList_append,
        String.toList_append, hblank, List.append_assoc, List.append_assoc, List.cons_append,
        List.nil_append, tokens_toSparql h.1, tokens_blank, ← List.map_cons, ih h.2,
        ← List.append_assoc]
      rfl

namespace Query

/-- The tokens in front of the pattern. -/
def opening (q : Query) : List Token :=
  keyword "SELECT" :: ((if q.distinct then [keyword "DISTINCT"] else []) ++
    .var q.projection.render.toList ::
      ((q.graph.toList.flatMap fun i => [keyword "FROM", .reference i.render.toList]) ++
        [keyword "WHERE"]))

/-- The tokens behind the pattern. -/
def closing (q : Query) : List Token :=
  (if q.orderBy.isEmpty then [] else
    keyword "ORDER" :: keyword "BY" :: q.orderBy.flatMap OrderKey.tokens) ++
    ((q.limit.toList.flatMap fun n => [keyword "LIMIT", keyword (toString n)]) ++
      q.offset.toList.flatMap fun n => [keyword "OFFSET", keyword (toString n)])

def tokens (q : Query) : List Token :=
  q.opening ++ (inBraces (Element.groupTokens q.pattern) ++ q.closing)

private theorem tokens_opening {q : Query} (hq : q.projection.WellNamed) (k : List Char) :
    Sparql.tokens ("SELECT ".toList ++ (q.selection ++ '\n' :: (q.origin ++
      ("WHERE ".toList ++ k)))) = q.opening ++ Sparql.tokens k := by
  have hselection : ∀ l, Sparql.tokens (q.selection ++ '\n' :: l) =
      (if q.distinct then [keyword "DISTINCT"] else []) ++
        .var q.projection.render.toList :: Sparql.tokens l := by
    intro l
    have hvar := tokens_var hq (by simp [Text.endsTerm] : Text.Ended ('\n' :: l))
    rw [tokens_newline] at hvar
    rw [selection, List.append_assoc]
    cases q.distinct with
    | false => exact hvar
    | true =>
      rw [if_pos rfl, tokens_spaced "DISTINCT " "DISTINCT" (by simp) (by decide), hvar]
      rfl
  have horigin : ∀ l, Sparql.tokens (q.origin ++ l) =
      (q.graph.toList.flatMap fun i => [keyword "FROM", .reference i.render.toList]) ++
        Sparql.tokens l := by
    intro l
    unfold origin
    cases q.graph with
    | none => rfl
    | some i =>
      simp only [List.append_assoc, List.cons_append, List.nil_append]
      rw [tokens_spaced "FROM " "FROM" (by simp) (by decide),
        tokens_reference i.isReference_render, tokens_newline]
      rfl
  rw [tokens_spaced "SELECT " "SELECT" (by simp) (by decide), hselection, horigin,
    tokens_spaced "WHERE " "WHERE" (by simp) (by decide), opening]
  simp

private theorem tokens_number (n : Nat) {k : List Char} (hk : Text.Ended k) :
    Sparql.tokens ((toString n).toList ++ k) = keyword (toString n) :: Sparql.tokens k := by
  refine tokens_word ?_ (hk.not_class fun _ => Text.isVariableChar_of_endsTerm)
  rw [Nat.toString_eq_repr, Nat.toList_repr]
  simp only [isWord, Bool.and_eq_true, Bool.not_eq_true', List.isEmpty_eq_false_iff,
    List.all_eq_true]
  refine ⟨Nat.toDigits_ne_nil, fun c hc => ?_⟩
  have hdigit := Nat.isDigit_of_mem_toDigits (by decide) (by decide) hc
  simp [Settings.isVariableChar, Char.isAlphanum, hdigit]

private theorem tokens_clause {name : String} (hname : isWord name.toList = true) (n : Nat)
    {k : List Char} (hk : Text.Ended k) :
    Sparql.tokens ('\n' :: (name.toList ++ ' ' :: ((toString n).toList ++ k))) =
      [keyword name, keyword (toString n)] ++ Sparql.tokens k := by
  rw [tokens_newline, tokens_keyword_blank hname, tokens_number n hk]
  rfl

private theorem tokens_limits (q : Query) : Sparql.tokens (q.limitLine ++ q.offsetLine) =
    (q.limit.toList.flatMap fun n => [keyword "LIMIT", keyword (toString n)]) ++
      q.offset.toList.flatMap fun n => [keyword "OFFSET", keyword (toString n)] := by
  have hoffset : Text.Ended q.offsetLine ∧ Sparql.tokens q.offsetLine =
      q.offset.toList.flatMap fun n => [keyword "OFFSET", keyword (toString n)] := by
    unfold offsetLine
    cases q.offset with
    | none => simp
    | some n =>
      have hclause := tokens_clause (by decide : isWord "OFFSET".toList = true) n Text.ended_nil
      exact ⟨by simp [Text.endsTerm], by simpa using hclause⟩
  rw [← hoffset.2]
  unfold limitLine
  cases q.limit with
  | none => rfl
  | some n =>
    have hclause := tokens_clause (by decide : isWord "LIMIT".toList = true) n hoffset.1
    simpa using hclause

private theorem tokens_closing {q : Query} (hq : ∀ key ∈ q.orderBy, key.target.WellNamed) :
    Sparql.tokens (q.orderClause.toList ++ (q.limitLine ++ q.offsetLine)) = q.closing := by
  rw [closing, ← tokens_limits]
  unfold orderClause
  split
  · rfl
  · have htext : "\nORDER BY ".toList = '\n' :: ("ORDER ".toList ++ "BY ".toList) := by simp
    rw [String.toList_append, htext, List.append_assoc, List.cons_append, List.append_assoc,
      tokens_newline, tokens_spaced "ORDER " "ORDER" (by simp) (by decide),
      tokens_spaced "BY " "BY" (by simp) (by decide), OrderKey.tokens_all hq]
    rfl

/-- Every query whose terms are tokens has the tokens of its structure. -/
theorem tokens_toSparql {q : Query} (hq : ∀ t ∈ q.terms, t.IsToken) :
    Sparql.tokens q.toSparql.toList = q.tokens := by
  simp only [terms, List.forall_mem_cons, List.forall_mem_append, List.forall_mem_map] at hq
  rw [toList_toSparql, tokens_opening hq.1, tokens_braced (Group.tokenized hq.2.2.1 1),
    tokens_closing hq.2.2.2, tokens]

end Query

end GraphPath
