import GraphPath.Proofs.Constants
import GraphPath.Proofs.Naming
import GraphPath.Proofs.QueryTokens
import GraphPath.Proofs.Quotation

/-!
# Literals within their tokens

The printed text of a literal is one token, whatever its value and its datatype are, but its
language tag is printed as it is. So the value and the datatype that a criterion asks for stay
within one token of the text of the query, and a language does if it is a language tag.
-/

namespace GraphPath

open Sparql

/-! ## Forms of printed literals -/

namespace Sparql

private theorem cut_quoted {pieces pieces' : List (List Char)}
    (h : ∀ piece ∈ pieces, IsQuotedChar piece) (h' : ∀ piece ∈ pieces', IsQuotedChar piece)
    {k k' : List Char} (heq : pieces.flatten ++ '"' :: k = pieces'.flatten ++ '"' :: k') :
    k = k' := by
  have hread := outcome_quotedText h k
  have hread' := outcome_quotedText h' k'
  rw [heq] at hread
  exact (Prod.mk.inj (Option.some.inj (hread.symm.trans hread'))).2

private theorem toLower_class (c : Char) : c.toLower.isAlpha = c.isAlpha ∧
    c.toLower.isAlphanum = c.isAlphanum := by
  by_cases hascii : c.toNat < 128
  · have hall : ∀ n : Fin 128, (Char.ofNat n).toLower.isAlpha = (Char.ofNat n).isAlpha ∧
        (Char.ofNat n).toLower.isAlphanum = (Char.ofNat n).isAlphanum := by decide
    have hchar := hall ⟨c.toNat, hascii⟩
    simpa only [Char.ofNat_toNat] using hchar
  · have hsame : c.toLower = c := by
      unfold Char.toLower
      split
      · next hupper =>
        have hle : c.toNat ≤ 90 := UInt32.le_iff_toNat_le.1 hupper.2
        omega
      · rfl
    simp [hsame]

private theorem isRun_toLower {accepts : Char → Bool}
    (haccepts : ∀ c, accepts c.toLower = accepts c) {s : List Char} :
    IsRun accepts (s.map Char.toLower) ↔ IsRun accepts s := by
  simp [IsRun, haccepts]

private theorem exists_parts_of_toLower {parts : List (List Char)}
    (hparts : ∀ part ∈ parts, IsRun Char.isAlphanum part) {s : List Char}
    (h : s.map Char.toLower = parts.flatMap ('-' :: ·)) :
    ∃ parts' : List (List Char), (∀ part ∈ parts', IsRun Char.isAlphanum part) ∧
      s = parts'.flatMap ('-' :: ·) := by
  induction parts generalizing s with
  | nil => exact ⟨[], by simp, by simpa using h⟩
  | cons part parts ih =>
    rw [List.forall_mem_cons] at hparts
    rw [List.flatMap_cons, List.cons_append, List.map_eq_cons_iff] at h
    obtain ⟨c, s, rfl, hc, hs⟩ := h
    obtain ⟨part', rest, rfl, hpart, hrest⟩ := List.map_eq_append_iff.1 hs
    obtain ⟨parts', hparts', rfl⟩ := ih hparts.2 hrest
    obtain rfl := (Text.toLower_eq_iff (by decide)).1 hc
    have hpart' : IsRun Char.isAlphanum part' := by
      rw [← isRun_toLower fun c => (toLower_class c).2, hpart]
      exact hparts.1
    refine ⟨part' :: parts', ?_, by simp⟩
    rw [List.forall_mem_cons]
    exact ⟨hpart', hparts'⟩

private theorem isLanguageTag_toLower {tag : List Char} :
    IsLanguageTag (tag.map Char.toLower) ↔ IsLanguageTag tag := by
  constructor
  · rintro ⟨first, parts, hfirst, hparts, h⟩
    obtain ⟨first', rest, rfl, rfl, hrest⟩ := List.map_eq_append_iff.1 h
    obtain ⟨parts', hparts', rfl⟩ := exists_parts_of_toLower hparts hrest
    exact ⟨first', parts', (isRun_toLower fun c => (toLower_class c).1).1 hfirst, hparts', rfl⟩
  · rintro ⟨first, parts, hfirst, hparts, rfl⟩
    refine ⟨first.map Char.toLower, parts.map (List.map Char.toLower),
      (isRun_toLower fun c => (toLower_class c).1).2 hfirst, ?_, ?_⟩
    · rw [List.forall_mem_map]
      exact fun part hpart => (isRun_toLower fun c => (toLower_class c).2).2 (hparts part hpart)
    · have hhyphen : Char.toLower '-' = '-' := by decide
      simp [List.map_flatMap, List.flatMap_map, hhyphen]

private theorem isSuffix_language_iff {tag : List Char} :
    IsSuffix ('@' :: tag) ↔ IsLanguageTag tag := by
  constructor
  · rintro (_ | h)
    exact h
  · exact .language

end Sparql

namespace Literal

private theorem isQuotedChar_escapeChar (c : Char) : IsQuotedChar (escapeChar c) := by
  by_cases hplain : escapeChar c = [c]
  · rw [hplain]
    obtain ⟨hquote, hbackslash, hnewline, hreturn, -⟩ := escapeChar_eq_self_iff.1 hplain
    exact .plain (by simp [isQuotable, hquote, hbackslash, hnewline, hreturn])
  · unfold escapeChar at hplain ⊢
    split_ifs <;> first | exact .escape (by decide) | simp_all

private theorem isLiteral_render_iff (l : Literal) :
    IsLiteral l.render.toList ↔ IsSuffix l.suffix := by
  have hpieces : ∀ piece ∈ l.value.toList.map escapeChar, IsQuotedChar piece := by
    rw [List.forall_mem_map]
    exact fun c _ => isQuotedChar_escapeChar c
  rw [toList_render, List.flatMap_def]
  constructor
  · intro h
    generalize htext :
      '"' :: ((l.value.toList.map escapeChar).flatten ++ '"' :: l.suffix) = text at h
    obtain ⟨hpieces', hsuffix⟩ := h
    obtain rfl := cut_quoted hpieces hpieces' (List.cons.inj htext).2
    exact hsuffix
  · exact .quoted hpieces

private theorem isLiteral_plain (value : String) : IsLiteral (plain value).render.toList :=
  (isLiteral_render_iff _).2 .nothing

private theorem isLiteral_typed (value : String) (datatype : Iri) :
    IsLiteral (typed value datatype).render.toList := by
  unfold typed
  split
  · exact isLiteral_plain value
  · exact (isLiteral_render_iff _).2 (.datatype datatype.isReference_render)

private theorem isLiteral_tagged_iff (value tag : String) :
    IsLiteral (tagged value tag).render.toList ↔ IsLanguageTag tag.toList := by
  rw [isLiteral_render_iff, ← isLanguageTag_toLower, ← String.toList_map]
  exact isSuffix_language_iff

end Literal

/-! ## Terms of a session -/

mutual

private theorem Expr.vars_eq (e : Expr) : e.vars = e.terms.flatMap Term.vars := by
  cases e with
  | always => rfl
  | term t => simp [Expr.vars, Expr.terms]
  | not e => rw [Expr.vars, Expr.terms, Expr.vars_eq e]
  | and l r => rw [Expr.vars, Expr.terms, List.flatMap_append, Expr.vars_eq l, Expr.vars_eq r]
  | or l r => rw [Expr.vars, Expr.terms, List.flatMap_append, Expr.vars_eq l, Expr.vars_eq r]
  | compare op l r =>
    rw [Expr.vars, Expr.terms, List.flatMap_append, Expr.vars_eq l, Expr.vars_eq r]
  | exist scope => rw [Expr.vars, Expr.terms, Element.groupVars_eq scope]
  | coalesce args => rw [Expr.vars, Expr.terms, Expr.listVars_eq args]
  | call function args => rw [Expr.vars, Expr.terms, Expr.listVars_eq args]

private theorem Expr.listVars_eq (args : List Expr) :
    Expr.listVars args = (Expr.listTerms args).flatMap Term.vars := by
  cases args with
  | nil => rfl
  | cons e rest =>
    rw [Expr.listVars, Expr.listTerms, List.flatMap_append, Expr.vars_eq e, Expr.listVars_eq rest]

private theorem Element.vars_eq (e : Element) : e.vars = e.terms.flatMap Term.vars := by
  cases e with
  | triple t => simp [Element.vars, Element.terms, TriplePattern.vars]
  | group inner => rw [Element.vars, Element.terms, Element.groupVars_eq inner]
  | union branches => rw [Element.vars, Element.terms, Element.branchVars_eq branches]
  | optional inner => rw [Element.vars, Element.terms, Element.groupVars_eq inner]
  | filter e => rw [Element.vars, Element.terms, Expr.vars_eq e]
  | bind e target =>
    rw [Element.vars, Element.terms, List.flatMap_append, Expr.vars_eq e]
    rfl

private theorem Element.groupVars_eq (g : List Element) :
    Element.groupVars g = (Element.groupTerms g).flatMap Term.vars := by
  cases g with
  | nil => rfl
  | cons e g =>
    rw [Element.groupVars, Element.groupTerms, List.flatMap_append, Element.vars_eq e,
      Element.groupVars_eq g]

private theorem Element.branchVars_eq (branches : List (List Element)) :
    Element.branchVars branches = (Element.branchTerms branches).flatMap Term.vars := by
  cases branches with
  | nil => rfl
  | cons g rest =>
    rw [Element.branchVars, Element.branchTerms, List.flatMap_append, Element.groupVars_eq g,
      Element.branchVars_eq rest]

end

private theorem Session.isToken_of_build {s : Session} (hregistry : s.registry = .builtin)
    (hsettings : s.settings.validate = .ok ())
    (hs : ∀ l ∈ s.literals, IsLiteral l.render.toList) {q : Query} (hbuild : s.build = .ok q) :
    ∀ t ∈ q.terms, t.IsToken := by
  have hvars : ∀ v ∈ q.vars, v.WellNamed := by
    obtain ⟨hresult, hstem⟩ := Settings.wellNamed_of_validate hsettings
    intro v hv
    rcases vars_of_build hregistry hbuild hv with rfl | hpending
    · exact hresult
    · exact Allocator.wellNamed_of_pending hstem hpending
  have hadmits := admits_of_build (fun l => IsLiteral l.render.toList) Literal.isLiteral_plain
    hregistry hs hbuild
  rw [Query.vars, List.forall_mem_cons, List.forall_mem_append, List.forall_mem_map] at hvars
  rw [Query.terms, List.forall_mem_cons, List.forall_mem_append, List.forall_mem_append,
    List.forall_mem_map, List.forall_mem_map]
  refine ⟨hvars.1, fun _ _ => trivial, fun t ht => ?_, fun key hkey => hvars.2.2 key hkey⟩
  rcases t with v | i | l
  · refine hvars.2.1 v ?_
    rw [Group.vars, Element.groupVars_eq]
    exact List.mem_flatMap.2 ⟨.var v, ht, List.mem_singleton_self v⟩
  · trivial
  · exact hadmits _ ht

/-! ## One element that varies -/

namespace Emit

variable {ι α β : Type} {hole : Variable → ι → Element}

/-- The steps fail alike, or they write the same up to one element. -/
def Uniform (hole : Variable → ι → Element) (m : ι → Emit α) : Prop :=
  ∀ a, (∃ e, ∀ i, m i a = .error e) ∨
    ∃ value front v back a', ∀ i, m i a = .ok ⟨value, front ++ hole v i :: back, a'⟩

private theorem uniform_write (v : Variable) : Uniform hole fun i => write (hole v i) :=
  fun a => .inr ⟨(), [], v, [], a, fun _ => rfl⟩

private theorem Uniform.after (m : Emit β) {f : β → ι → Emit α} (hf : ∀ x, Uniform hole (f x)) :
    Uniform hole fun i => m >>= fun x => f x i := by
  intro a
  cases hm : m a with
  | error e => exact .inl ⟨e, fun i => by simp only [bind_apply, andThen, hm]⟩
  | ok first =>
    rcases hf first.value first.allocator with ⟨e, he⟩ | ⟨value, front, v, back, a', hok⟩
    · exact .inl ⟨e, fun i => by simp only [bind_apply, andThen, hm, he i]⟩
    · refine .inr ⟨value, first.elements ++ front, v, back, a', fun i => ?_⟩
      simp only [bind_apply, andThen, hm, hok i, List.append_assoc]

private theorem Uniform.before {m : ι → Emit α} (hm : Uniform hole m) (f : α → Emit β) :
    Uniform hole fun i => m i >>= f := by
  intro a
  rcases hm a with ⟨e, he⟩ | ⟨value, front, v, back, a', hok⟩
  · exact .inl ⟨e, fun i => by simp only [bind_apply, andThen, he i]⟩
  · cases hf : f value a' with
    | error e => exact .inl ⟨e, fun i => by simp only [bind_apply, andThen, hok i, hf]⟩
    | ok second =>
      refine .inr ⟨second.value, front, v, back ++ second.elements, second.allocator, fun i => ?_⟩
      simp only [bind_apply, andThen, hok i, hf, List.append_assoc, List.cons_append]

private theorem Uniform.inOrder {m : ι → Emit α} (hm : Uniform hole m) (ms ms' : List (Emit α)) :
    Uniform hole fun i => inOrder (ms ++ m i :: ms') := by
  induction ms with
  | nil => exact hm.before _
  | cons first ms ih => exact .after first fun x => ih.before _

end Emit

namespace Session

/-- The session with a criterion that expects the node, between other criteria. -/
def expecting (s : Session) (before : List Criterion) (path : Selector) (op : MatchOp)
    (after : List Criterion) (n : Node) : Session :=
  { s with criteria := before ++ ⟨path, some ⟨op, n⟩⟩ :: after }

/-- The session where the path of the criterion may lead to any node. -/
def requiring (s : Session) (before : List Criterion) (path : Selector)
    (after : List Criterion) : Session :=
  { s with criteria := before ++ ⟨path, none⟩ :: after }

variable {s : Session} {before after : List Criterion} {path : Selector} {op : MatchOp}

private theorem uniform_emit (s : Session) (before : List Criterion) (path : Selector)
    (op : MatchOp) (after : List Criterion) :
    Emit.Uniform (fun v n => .filter (Constraint.condition ⟨op, n⟩ v)) fun n =>
      (s.expecting before path op after n).emit := by
  have hcriterion : Emit.Uniform (fun v n => .filter (Constraint.condition ⟨op, n⟩ v)) fun n =>
      Criterion.emit s.registry s.settings.recursion ⟨path, some ⟨op, n⟩⟩ s.root :=
    .after (Compile.selector s.registry s.settings.recursion path s.root) fun v =>
      Emit.uniform_write v
  have hcriteria := hcriterion.inOrder
    (before.map fun c => c.emit s.registry s.settings.recursion s.root)
    (after.map fun c => c.emit s.registry s.settings.recursion s.root)
  have hemit : ∀ n, (s.expecting before path op after n).emit =
      Emit.inOrder (s.types.map (emitType s.root)) >>= fun _ => Emit.inOrder
        ((before.map fun c => c.emit s.registry s.settings.recursion s.root) ++
          Criterion.emit s.registry s.settings.recursion ⟨path, some ⟨op, n⟩⟩ s.root ::
            after.map fun c => c.emit s.registry s.settings.recursion s.root) >>= fun _ =>
          Emit.inOrder (s.orderBy.map s.emitOrder) := by
    intro n
    simp only [emit, expecting, List.map_append, List.map_cons]
    rfl
  simp only [hemit]
  exact .after _ fun _ => hcriteria.before _

private theorem build_expecting (s : Session) (before : List Criterion) (path : Selector)
    (op : MatchOp) (after : List Criterion) :
    (∃ e, ∀ n, (s.expecting before path op after n).build = .error e) ∨
      ∃ (q : Query) (front : Group) (v : Variable) (back : Group), ∀ n,
        (s.expecting before path op after n).build = .ok { q with
          pattern := front ++ .filter (Constraint.condition ⟨op, n⟩ v) :: back } := by
  rcases uniform_emit s before path op after (.ofSettings s.settings) with
    ⟨e, he⟩ | ⟨keys, front, v, back, a, hok⟩
  · refine .inl ⟨e, fun n => ?_⟩
    have hemit : (s.expecting before path op after n).emit
        (.ofSettings (s.expecting before path op after n).settings) = .error e := he n
    rw [build, hemit]
    rfl
  · refine .inr ⟨⟨s.root, s.graph, [], keys, s.limit, s.offset, s.settings.distinct⟩,
      front, v, back, fun n => ?_⟩
    have hemit : (s.expecting before path op after n).emit
        (.ofSettings (s.expecting before path op after n).settings) = .ok _ := hok n
    rw [build, hemit]
    rfl

private theorem forall_mem_literals_expecting (ok : Literal → Prop) {n : Node}
    (hothers : ∀ l ∈ (s.requiring before path after).literals, ok l)
    (hn : ∀ l ∈ (Constraint.printed ⟨op, n⟩).literals, ok l) :
    ∀ l ∈ (s.expecting before path op after n).literals, ok l := by
  simp only [literals, requiring, expecting, Criterion.literals, List.flatMap_append,
    List.flatMap_cons, List.forall_mem_append, Option.toList_none, Option.toList_some,
    List.flatMap_nil, List.append_nil] at hothers ⊢
  exact ⟨⟨hothers.1.1, ⟨hothers.1.2.1, hn⟩, hothers.1.2.2⟩, hothers.2⟩

end Session

private theorem Node.isToken_iff {n : Node} :
    (Term.node n).IsToken ↔ ∀ l ∈ n.literals, IsLiteral l.render.toList := by
  cases n <;> simp [Term.IsToken, Node.literals]

private theorem Constraint.tokens_condition (op : MatchOp) (v : Variable) :
    ∃ front back : List Token, ∀ n, (Constraint.condition ⟨op, n⟩ v).tokens =
      front ++ (Term.node (Constraint.printed ⟨op, n⟩)).token :: back := by
  cases op with
  | comparison op =>
    refine ⟨[.symbol ['('], .var v.render.toList, .symbol op.symbol.toList], [.symbol [')']],
      fun n => ?_⟩
    simp [condition, printed, Expr.tokens, Expr.var, Term.token, bracketed]
  | contains =>
    refine ⟨[keyword "CONTAINS", .symbol ['('], keyword "STR", .symbol ['('],
      .var v.render.toList, .symbol [')'], .symbol [',']], [.symbol [')']], fun n => ?_⟩
    simp [condition, printed, Expr.tokens, Expr.listTokens, Expr.var, Expr.literal, Term.literal,
      Term.token, bracketed, Builtin.name]

private theorem Element.groupTokens_append (g g' : Group) :
    Element.groupTokens (g ++ g') = Element.groupTokens g ++ Element.groupTokens g' := by
  induction g with
  | nil => rfl
  | cons e g ih => simp only [List.cons_append, Element.groupTokens, ih, List.append_assoc]

private theorem Query.exists_tokens_eq (q : Query) (front back : Group) :
    ∃ before after : List Token, ∀ e,
      { q with pattern := front ++ e :: back }.tokens = before ++ (e.tokens ++ after) := by
  refine ⟨q.opening ++ .symbol ['\x7b'] :: Element.groupTokens front,
    Element.groupTokens back ++ .symbol ['\x7d'] :: q.closing, fun e => ?_⟩
  have hopening : { q with pattern := front ++ e :: back }.opening = q.opening := rfl
  have hclosing : { q with pattern := front ++ e :: back }.closing = q.closing := rfl
  rw [tokens, hopening, hclosing, Element.groupTokens_append, Element.groupTokens]
  simp [inBraces]

/-- A node that a criterion expects is one token of the query, and the other tokens do not depend on
it. -/
theorem Session.tokens_expecting {s : Session} {before after : List Criterion} {path : Selector}
    {op : MatchOp} (hregistry : s.registry = .builtin) (hsettings : s.settings.validate = .ok ())
    (hothers : ∀ l ∈ (s.requiring before path after).literals, IsLiteral l.render.toList) :
    (∃ e, ∀ n, (s.expecting before path op after n).build = .error e) ∨
      ∃ front back : List Token, ∀ n, (Term.node (Constraint.printed ⟨op, n⟩)).IsToken →
        ∃ q, (s.expecting before path op after n).build = .ok q ∧
          tokens q.toSparql.toList =
            front ++ (Term.node (Constraint.printed ⟨op, n⟩)).token :: back := by
  refine (s.build_expecting before path op after).imp_right ?_
  rintro ⟨q, before', v, after', hbuild⟩
  obtain ⟨front, back, hquery⟩ := q.exists_tokens_eq before' after'
  obtain ⟨front', back', hcondition⟩ := Constraint.tokens_condition op v
  refine ⟨front ++ keyword "FILTER" :: .symbol ['('] :: front',
    back' ++ .symbol [')'] :: back, fun n hn => ⟨_, hbuild n, ?_⟩⟩
  have hliterals : ∀ l ∈ (s.expecting before path op after n).literals,
      IsLiteral l.render.toList :=
    forall_mem_literals_expecting (fun l => IsLiteral l.render.toList) hothers
      (Node.isToken_iff.1 hn)
  have hterms := isToken_of_build (s := s.expecting before path op after n) hregistry hsettings
    hliterals (hbuild n)
  rw [Query.tokens_toSparql hterms, hquery, Element.tokens, hcondition n]
  simp [bracketed]

/-- Literals are printed as one token, whatever their values and datatypes are, and those in a
language exactly if it is a language tag. What a criterion expects is then one token of the text of
the query, and the other tokens do not depend on it. -/
theorem Literal.printed_as_one_token (value tag : String) (datatype : Iri) (s : Session)
    (before : List Criterion) (path : Selector) (op : MatchOp) (after : List Criterion) :
    IsLiteral (plain value).render.toList ∧ IsLiteral (typed value datatype).render.toList ∧
    (IsLiteral (tagged value tag).render.toList ↔ IsLanguageTag tag.toList) ∧
    (s.registry = .builtin → s.settings.validate = .ok () →
      (∀ l ∈ (s.requiring before path after).literals, IsLiteral l.render.toList) →
      (∃ e, ∀ n, (s.expecting before path op after n).build = .error e) ∨
      ∃ front back : List Token, ∀ n, (Term.node (Constraint.printed ⟨op, n⟩)).IsToken →
        ∃ q, (s.expecting before path op after n).build = .ok q ∧
          tokens q.toSparql.toList =
            front ++ (Term.node (Constraint.printed ⟨op, n⟩)).token :: back) :=
  ⟨isLiteral_plain value, isLiteral_typed value datatype, isLiteral_tagged_iff value tag,
    fun hregistry hsettings hothers => Session.tokens_expecting hregistry hsettings hothers⟩

/-- A value with quotes, line breaks and comments, a datatype that closes its brackets, and a
language with a region leave the other tokens as they are. -/
theorem Literal.printed_as_one_token_hostile :
    let value := "a\" . \x7d\n# \\"
    let datatype : Iri := ⟨"http://e/d> . ?s ?p ?o \x7d #"⟩
    let p : Iri := ⟨"http://e/p"⟩
    let query (l : Literal) := ((Session.start .builtin {} none).expecting [⟨.reverse p, none⟩]
      (.testing (.property p) (.comparison .eq .self (.constant (.literal (tagged "b" "en")))))
      (.comparison .le) [] (.literal l)).build
    IsLanguageTag "en-GB".toList ∧
      ∃ front back : List Token, ∀ l ∈ [plain value, typed value datatype, tagged value "en-GB"],
        ∃ q, query l = .ok q ∧
          tokens q.toSparql.toList = front ++ .literal l.render.toList :: back := by
  intro value datatype p query
  have htag : IsLanguageTag "en".toList := ⟨"en".toList, [], by simp [IsRun], by simp, by simp⟩
  have hregion : IsLanguageTag "en-GB".toList :=
    ⟨"en".toList, ["GB".toList], by simp [IsRun], by simp [IsRun], by simp⟩
  let path : Selector := .testing (.property p)
    (.comparison .eq .self (.constant (.literal (tagged "b" "en"))))
  have hprinted (value tag : String) := printed_as_one_token value tag datatype
    (Session.start .builtin {} none) [⟨.reverse p, none⟩] path (.comparison .le) []
  have hothers : ∀ l ∈ ((Session.start .builtin {} none).requiring [⟨.reverse p, none⟩] path
      []).literals, IsLiteral l.render.toList := by
    simpa [path, Session.literals, Session.requiring, Session.start, Criterion.literals,
      Selector.literals, Test.literals, Node.literals] using (hprinted "b" "en").2.2.1.2 htag
  obtain ⟨hplain, htyped, htagged, hsession⟩ := hprinted value "en-GB"
  refine ⟨hregion, ?_⟩
  rcases hsession rfl (by decide +kernel) hothers with ⟨e, he⟩ | ⟨front, back, hbuild⟩
  · have hok : (query (plain value)).isOk = true := by decide +kernel
    rw [show query (plain value) = .error e from he _] at hok
    cases hok
  · refine ⟨front, back, ?_⟩
    simp only [List.forall_mem_cons, List.not_mem_nil, false_imp_iff, implies_true, and_true]
    exact ⟨hbuild (.literal (plain value)) hplain, hbuild (.literal (typed value datatype)) htyped,
      hbuild (.literal (tagged value "en-GB")) (htagged.2 hregion)⟩

/-- A text in the place of a language closes the condition and adds a statement to the query. -/
theorem Literal.tag_adds_tokens :
    let tag := "en) . ?s ?p ?o . FILTER(1 = 1"
    let query (l : Literal) := ((Session.start .builtin {} none).expecting []
      (.property ⟨"http://e/p"⟩) (.comparison .eq) [] (.literal l)).build
    ¬ IsLiteral (tagged "a" tag).render.toList ∧
      ∃ q q', query (plain "a") = .ok q ∧ query (tagged "a" tag) = .ok q' ∧
        (tokens q.toSparql.toList).length < (tokens q'.toSparql.toList).length := by
  intro tag query
  refine ⟨fun h => ?_, ?_⟩
  · have hread := outcome_languageTag ((isLiteral_tagged_iff "a" tag).1 h) (k := []) (by simp)
    have hrefused : Parser.outcome languageTag (tag.toList ++ []) ≠ some (tag.toList, []) := by
      decide +kernel
    exact hrefused hread
  · have hlonger : (query (plain "a")).toOption.any (fun q =>
        (query (tagged "a" tag)).toOption.any fun q' =>
          (tokens q.toSparql.toList).length < (tokens q'.toSparql.toList).length) = true := by
      decide +kernel
    obtain ⟨q, hq, hany⟩ := exists_ok_of_any hlonger
    obtain ⟨q', hq', hlength⟩ := exists_ok_of_any hany
    exact ⟨q, q', hq, hq', of_decide_eq_true hlength⟩

end GraphPath
