import GraphPath.Path.Selector
import GraphPath.Store.Quad
import GraphPath.Store.Value

/-!
# Where navigational selectors lead

Selectors that only navigate have a meaning of their own, as relations between nodes: properties are
steps along statements, paths are compositions, and a repetition is the union of its powers. The
tests on them ask for a type, or whether a path leads somewhere, and combine such questions.
-/

namespace GraphPath

/-- The relation composed with itself the given number of times. -/
def Repeated (R : Node → Node → Prop) : Nat → Node → Node → Prop
  | 0, c, v => v = c
  | k + 1, c, v => ∃ m, R c m ∧ Repeated R k m v

/-- The node is the subject or the object of a statement. -/
def Node.StoredIn (D : List Quad) (n : Node) : Prop := ∃ q ∈ D, n = .iri q.subject ∨ n = q.object

mutual

/-- Whether a selector only navigates: it computes no values and compares none but by `&`. -/
def Selector.isNavigational : Selector → Bool
  | .property _ => true
  | .reverse _ => true
  | .path left right => left.isNavigational && right.isNavigational
  | .union left right => left.isNavigational && right.isNavigational
  | .intersection left right => left.isNavigational && right.isNavigational
  | .recursive inner _ _ => inner.isNavigational
  | .grouping inner => inner.isNavigational
  | .testing delegate t => delegate.isNavigational && t.isNavigational
  | .function _ _ => false
  | .self => true
  | .wildcard => true
  | .constant _ => false

def Test.isNavigational : Test → Bool
  | .isA (.constant (.iri _)) => true
  | .and left right => left.isNavigational && right.isNavigational
  | .or left right => left.isNavigational && right.isNavigational
  | .not inner => inner.isNavigational
  | .pathExists path => path.isNavigational
  | _ => false

end

mutual

/-- Whether a selector leads from a node to another one. A repetition without an upper bound goes to
the given depth, or to its lower bound if that is deeper. -/
def Selector.Leads (D : List Quad) (maxDepth : Nat) : Selector → Node → Node → Prop
  | .property p, c, v => ∃ q ∈ D, c = .iri q.subject ∧ q.predicate = p ∧ v = q.object
  | .reverse p, c, v => ∃ q ∈ D, v = .iri q.subject ∧ q.predicate = p ∧ c = q.object
  | .path left right, c, v => ∃ m, left.Leads D maxDepth c m ∧ right.Leads D maxDepth m v
  | .union left right, c, v => left.Leads D maxDepth c v ∨ right.Leads D maxDepth c v
  | .intersection left right, c, v =>
    left.Leads D maxDepth c v ∧
      ∃ w, right.Leads D maxDepth c w ∧ Comparison.eq.apply v w = some true
  | .recursive inner min max, c, v =>
    ∃ k, min ≤ k ∧ k ≤ max.getD (Nat.max maxDepth min) ∧
      Repeated (inner.Leads D maxDepth) k c v
  | .grouping inner, c, v => inner.Leads D maxDepth c v
  | .testing delegate t, c, v => v = c ∧ ∃ w, delegate.Leads D maxDepth c w ∧ t.Holds D maxDepth w
  | .function _ _, _, _ => False
  | .self, c, v => v = c
  | .wildcard, c, v => ∃ q ∈ D, c = .iri q.subject ∧ v = q.object
  | .constant _, _, _ => False
termination_by structural s => s

/-- Whether a test holds of a node. -/
def Test.Holds (D : List Quad) (maxDepth : Nat) : Test → Node → Prop
  | .isA (.constant (.iri i)), c =>
    ∃ q ∈ D, c = .iri q.subject ∧ q.predicate = Iri.rdfType ∧ q.object = .iri i
  | .and left right, c => left.Holds D maxDepth c ∧ right.Holds D maxDepth c
  | .or left right, c => left.Holds D maxDepth c ∨ right.Holds D maxDepth c
  | .not inner, c => ¬ inner.Holds D maxDepth c
  | .pathExists path, c => ∃ v, path.Leads D maxDepth c v
  | _, _ => False
termination_by structural t => t

end

private theorem Repeated.storedIn {D : List Quad} {R : Node → Node → Prop}
    (h : ∀ c v, c.StoredIn D → R c v → v.StoredIn D) {k : Nat} {c v : Node} (hc : c.StoredIn D)
    (hv : Repeated R k c v) : v.StoredIn D := by
  induction k generalizing c with
  | zero =>
    cases hv
    exact hc
  | succ k ih =>
    obtain ⟨m, hm, hv⟩ := hv
    exact ih (h c m hc hm) hv

theorem Selector.Leads.storedIn {D : List Quad} {maxDepth : Nat} {s : Selector} {c v : Node}
    (hc : c.StoredIn D) (h : s.Leads D maxDepth c v) : v.StoredIn D := by
  cases s with
  | property p =>
    obtain ⟨q, hq, -, -, rfl⟩ := h
    exact ⟨q, hq, .inr rfl⟩
  | reverse p =>
    obtain ⟨q, hq, rfl, -, -⟩ := h
    exact ⟨q, hq, .inl rfl⟩
  | path left right =>
    obtain ⟨m, hm, hv⟩ := h
    exact hv.storedIn (hm.storedIn hc)
  | union left right => exact h.elim (·.storedIn hc) (·.storedIn hc)
  | intersection left right => exact h.1.storedIn hc
  | recursive inner min max =>
    obtain ⟨k, -, -, hk⟩ := h
    exact Repeated.storedIn (fun c v hc hv => Selector.Leads.storedIn hc hv) hc hk
  | grouping inner => exact Selector.Leads.storedIn (s := inner) hc h
  | testing delegate t => exact h.1 ▸ hc
  | function name args => exact h.elim
  | self => exact h ▸ hc
  | wildcard =>
    obtain ⟨q, hq, -, rfl⟩ := h
    exact ⟨q, hq, .inr rfl⟩
  | constant n => exact h.elim
termination_by structural s

end GraphPath
