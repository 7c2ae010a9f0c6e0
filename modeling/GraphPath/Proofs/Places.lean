import GraphPath.Proofs.Alternatives

/-!
# Places in a pattern

What stands where in a pattern: an element is met with the variables of the elements before it, in
its own group and in the groups around it, and with all the variables that stand around it. A
pattern is orderly if its unions and the scopes of its conditions are as asked at their places, and
if no binding has a target that stands before it.
-/

namespace GraphPath

/-- Any two of the groups have no variable in common but the given ones. -/
def ShareOnly (shared : List Variable) (groups : List Group) : Prop :=
  groups.Pairwise fun g g' => ∀ v ∈ g.vars, v ∈ g'.vars → v ∈ shared

section Places

variable (union : List Group → Prop) (scope : Set Variable → Group → Prop)

mutual

/-- The unions and scopes in the expression are as asked, and the bindings in its scopes have
targets that do not stand before them. -/
def Expr.Orderly (before around : Set Variable) : Expr → Prop
  | .always => True
  | .term _ => True
  | .not e => e.Orderly before around
  | .and l r => l.Orderly before (around ∪ {v | v ∈ r.vars}) ∧
      r.Orderly before (around ∪ {v | v ∈ l.vars})
  | .or l r => l.Orderly before (around ∪ {v | v ∈ r.vars}) ∧
      r.Orderly before (around ∪ {v | v ∈ l.vars})
  | .compare _ l r => l.Orderly before (around ∪ {v | v ∈ r.vars}) ∧
      r.Orderly before (around ∪ {v | v ∈ l.vars})
  | .exist inner => scope around inner ∧ Element.GroupOrderly before around inner
  | .coalesce args => Expr.ListOrderly before around args
  | .call _ args => Expr.ListOrderly before around args

def Expr.ListOrderly (before around : Set Variable) : List Expr → Prop
  | [] => True
  | e :: rest => e.Orderly before (around ∪ {v | v ∈ Expr.listVars rest}) ∧
      Expr.ListOrderly before (around ∪ {v | v ∈ e.vars}) rest

/-- The unions and scopes in the element are as asked, and its bindings have targets that do not
stand before them. -/
def Element.Orderly (before around : Set Variable) : Element → Prop
  | .triple _ => True
  | .group inner => Element.GroupOrderly before around inner
  | .union branches => union branches ∧ Element.BranchOrderly before around branches
  | .optional inner => Element.GroupOrderly before around inner
  | .filter e => e.Orderly before around
  | .bind e target => target ∉ before ∧ e.Orderly before (around ∪ {target})

/-- An element of a group has those in front of it before it, and all the others around it. -/
def Element.GroupOrderly (before around : Set Variable) : List Element → Prop
  | [] => True
  | e :: rest => e.Orderly before (around ∪ {v | v ∈ Element.groupVars rest}) ∧
      Element.GroupOrderly (before ∪ {v | v ∈ e.vars}) (around ∪ {v | v ∈ e.vars}) rest

/-- A branch of a union has the other branches around it; none of them is before it. -/
def Element.BranchOrderly (before around : Set Variable) : List (List Element) → Prop
  | [] => True
  | g :: rest => Element.GroupOrderly before (around ∪ {v | v ∈ Element.branchVars rest}) g ∧
      Element.BranchOrderly before (around ∪ {v | v ∈ Element.groupVars g}) rest

end

end Places

/-- The expression is orderly at every place. -/
def Expr.Plain (union : List Group → Prop) (scope : Set Variable → Group → Prop) (e : Expr) :
    Prop :=
  ∀ before around, e.Orderly union scope before around

section Lemmas

variable {union : List Group → Prop} {scope : Set Variable → Group → Prop}

theorem Expr.plain_term (t : Term) : (Expr.term t).Plain union scope := fun _ _ => trivial

theorem Expr.plain_compare (op : Comparison) {l r : Expr} (hl : l.Plain union scope)
    (hr : r.Plain union scope) : (Expr.compare op l r).Plain union scope :=
  fun before _ => ⟨hl before _, hr before _⟩

theorem Expr.plain_call {function : Builtin} {args : List Expr}
    (h : ∀ e ∈ args, e.Plain union scope) : (Expr.call function args).Plain union scope := by
  intro before around
  show Expr.ListOrderly union scope before around args
  induction args generalizing around with
  | nil => trivial
  | cons e rest ih =>
    exact ⟨h e List.mem_cons_self before _, ih (fun e he => h e (List.mem_cons_of_mem _ he)) _⟩

theorem Expr.orderly_both {before around : Set Variable} {l r : Expr}
    (hl : l.Orderly union scope before (around ∪ {v | v ∈ r.vars}))
    (hr : r.Orderly union scope before (around ∪ {v | v ∈ l.vars})) :
    (Expr.both l r).Orderly union scope before around := by
  unfold Expr.both
  split
  · simpa [Expr.vars] using hr
  · simpa [Expr.vars] using hl
  · exact ⟨hl, hr⟩

theorem Element.groupOrderly_append {before around : Set Variable} {g g' : Group}
    (h : Element.GroupOrderly union scope before (around ∪ {v | v ∈ g'.vars}) g)
    (h' : Element.GroupOrderly union scope (before ∪ {v | v ∈ g.vars})
      (around ∪ {v | v ∈ g.vars}) g') :
    Element.GroupOrderly union scope before around (g ++ g') := by
  induction g generalizing before around with
  | nil => simpa [Group.vars, Element.groupVars] using h'
  | cons e rest ih =>
    obtain ⟨he, hrest⟩ := h
    rw [List.cons_append, Element.GroupOrderly]
    refine ⟨?_, ih ?_ ?_⟩
    · convert he using 1
      ext v
      simp only [Element.groupVars_append, List.mem_append, Set.mem_union, Set.mem_ofPred_eq,
        Group.vars]
      tauto
    · convert hrest using 1
      exact Set.union_right_comm _ _ _
    · convert h' using 1 <;>
      · ext v
        simp only [Group.vars, Element.groupVars, List.mem_append, Set.mem_union,
          Set.mem_ofPred_eq, or_assoc]

theorem Element.groupOrderly_singleton {before around : Set Variable} {e : Element}
    (h : e.Orderly union scope before around) :
    Element.GroupOrderly union scope before around [e] := by
  refine ⟨?_, trivial⟩
  simpa [Element.groupVars] using h

/-- Branches that share only some variables are orderly together if each of them is orderly
wherever only those stand around it. -/
theorem Element.branchOrderly_of_shareOnly {shared : List Variable} {groups : List Group}
    {before around : Set Variable} (hshare : ShareOnly shared groups)
    (haround : ∀ g ∈ groups, ∀ v ∈ around, v ∈ Group.vars g → v ∈ shared)
    (h : ∀ g ∈ groups, ∀ around', (∀ v ∈ around', v ∈ Group.vars g → v ∈ shared) →
      Element.GroupOrderly union scope before around' g) :
    Element.BranchOrderly union scope before around groups := by
  induction groups generalizing around with
  | nil => trivial
  | cons g rest ih =>
    obtain ⟨hg, hrest⟩ := List.pairwise_cons.1 hshare
    refine ⟨h g List.mem_cons_self _ fun v hv hvg => ?_, ih hrest (fun g' hg' v hv hvg' => ?_)
      fun g' hg' => h g' (List.mem_cons_of_mem _ hg')⟩
    · rcases hv with hv | hv
      · exact haround g List.mem_cons_self v hv hvg
      · obtain ⟨g', hg', hvg'⟩ := Compile.mem_branchVars_iff.1 hv
        exact hg g' hg' v hvg hvg'
    · rcases hv with hv | hv
      · exact haround g' (List.mem_cons_of_mem _ hg') v hv hvg'
      · exact hg g' hg' v hv hvg'

end Lemmas

end GraphPath
