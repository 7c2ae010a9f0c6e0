import GraphPath.Node

/-!
# Path expressions

A selector leads from a context resource to a set of values. A test is a condition on a context
resource. Both are trees, and each node of a tree has a kind, under which the rules that compile
it are registered.
-/

namespace GraphPath

inductive Comparison where
  | eq
  | ne
  | lt
  | le
  | gt
  | ge
deriving DecidableEq, Repr

def Comparison.symbol : Comparison → String
  | .eq => "="
  | .ne => "!="
  | .lt => "<"
  | .le => "<="
  | .gt => ">"
  | .ge => ">="

mutual

inductive Selector where
  /-- Along a property. -/
  | property (p : Iri)
  /-- Against a property. -/
  | reverse (p : Iri)
  /-- First the left selector, then the right one from each of its values. -/
  | path (left right : Selector)
  | union (left right : Selector)
  | intersection (left right : Selector)
  /-- The inner selector applied `min` to `max` times, without bound when there is no `max`. -/
  | recursive (inner : Selector) (min : Nat) (max : Option Nat)
  /-- A selector in parentheses. -/
  | grouping (inner : Selector)
  /-- The context, if some value of the delegate passes the test. -/
  | testing (delegate : Selector) (test : Test)
  | function (name : String) (args : List Selector)
  /-- The context itself. -/
  | self
  /-- Along any property. -/
  | wildcard
  | constant (node : Node)

inductive Test where
  /-- The context has a type. -/
  | isA (type : Selector)
  | and (left right : Test)
  | or (left right : Test)
  | not (inner : Test)
  | comparison (op : Comparison) (left right : Selector)
  /-- The path leads to the node. -/
  | pathEquality (left right : Selector)
  /-- The path leads somewhere. -/
  | pathExists (path : Selector)
  /-- The context is a literal in a language. -/
  | language (tag : String)
  /-- The context is a literal of a datatype. -/
  | datatype (type : Iri)

end

mutual

/-- Whether two selectors are the same tree. -/
def Selector.same : Selector → Selector → Bool
  | .property p, .property q => p = q
  | .reverse p, .reverse q => p = q
  | .path l r, .path l' r' => l.same l' && r.same r'
  | .union l r, .union l' r' => l.same l' && r.same r'
  | .intersection l r, .intersection l' r' => l.same l' && r.same r'
  | .recursive s min max, .recursive s' min' max' => s.same s' && min = min' && max = max'
  | .grouping s, .grouping s' => s.same s'
  | .testing s t, .testing s' t' => s.same s' && t.same t'
  | .function name args, .function name' args' => name = name' && Selector.sameAll args args'
  | .self, .self => true
  | .wildcard, .wildcard => true
  | .constant n, .constant n' => n = n'
  | _, _ => false

def Selector.sameAll : List Selector → List Selector → Bool
  | [], [] => true
  | s :: rest, s' :: rest' => s.same s' && Selector.sameAll rest rest'
  | _, _ => false

/-- Whether two tests are the same tree. -/
def Test.same : Test → Test → Bool
  | .isA s, .isA s' => s.same s'
  | .and l r, .and l' r' => l.same l' && r.same r'
  | .or l r, .or l' r' => l.same l' && r.same r'
  | .not t, .not t' => t.same t'
  | .comparison op l r, .comparison op' l' r' => op = op' && l.same l' && r.same r'
  | .pathEquality l r, .pathEquality l' r' => l.same l' && r.same r'
  | .pathExists s, .pathExists s' => s.same s'
  | .language tag, .language tag' => tag = tag'
  | .datatype d, .datatype d' => d = d'
  | _, _ => false

end

mutual

theorem Selector.same_iff (a b : Selector) : a.same b = true ↔ a = b := by
  cases a with
  | property p => cases b <;> simp [Selector.same]
  | reverse p => cases b <;> simp [Selector.same]
  | path l r => cases b <;> simp [Selector.same, Selector.same_iff l, Selector.same_iff r]
  | union l r => cases b <;> simp [Selector.same, Selector.same_iff l, Selector.same_iff r]
  | intersection l r => cases b <;> simp [Selector.same, Selector.same_iff l, Selector.same_iff r]
  | recursive s min max => cases b <;> simp [Selector.same, Selector.same_iff s, and_assoc]
  | grouping s => cases b <;> simp [Selector.same, Selector.same_iff s]
  | testing s t => cases b <;> simp [Selector.same, Selector.same_iff s, Test.same_iff t]
  | function name args => cases b <;> simp [Selector.same, Selector.sameAll_iff args]
  | self => cases b <;> simp [Selector.same]
  | wildcard => cases b <;> simp [Selector.same]
  | constant n => cases b <;> simp [Selector.same]

theorem Selector.sameAll_iff (a b : List Selector) : Selector.sameAll a b = true ↔ a = b := by
  cases a with
  | nil => cases b <;> simp [Selector.sameAll]
  | cons s rest =>
    cases b <;> simp [Selector.sameAll, Selector.same_iff s, Selector.sameAll_iff rest]

theorem Test.same_iff (a b : Test) : a.same b = true ↔ a = b := by
  cases a with
  | isA s => cases b <;> simp [Test.same, Selector.same_iff s]
  | and l r => cases b <;> simp [Test.same, Test.same_iff l, Test.same_iff r]
  | or l r => cases b <;> simp [Test.same, Test.same_iff l, Test.same_iff r]
  | not t => cases b <;> simp [Test.same, Test.same_iff t]
  | comparison op l r =>
    cases b <;> simp [Test.same, Selector.same_iff l, Selector.same_iff r, and_assoc]
  | pathEquality l r => cases b <;> simp [Test.same, Selector.same_iff l, Selector.same_iff r]
  | pathExists s => cases b <;> simp [Test.same, Selector.same_iff s]
  | language tag => cases b <;> simp [Test.same]
  | datatype d => cases b <;> simp [Test.same]

end

instance : DecidableEq Selector := fun a b => decidable_of_iff _ (Selector.same_iff a b)

instance : DecidableEq Test := fun a b => decidable_of_iff _ (Test.same_iff a b)

/-- The selectors one after the other, grouped to the left; `none` for no selector at all. -/
def Selector.chain : List Selector → Option Selector
  | [] => none
  | s :: rest => some (rest.foldl Selector.path s)

inductive SelectorKind where
  | property
  | reverse
  | path
  | union
  | intersection
  | recursive
  | grouping
  | testing
  | function
  | self
  | wildcard
  | constant
deriving DecidableEq, Repr

namespace SelectorKind

def all : List SelectorKind :=
  [property, reverse, path, union, intersection, recursive, grouping, testing, function, self,
   wildcard, constant]

theorem mem_all (k : SelectorKind) : k ∈ all := by cases k <;> decide

def name : SelectorKind → String
  | property => "property"
  | reverse => "reverse-property"
  | path => "path"
  | union => "union"
  | intersection => "intersection"
  | recursive => "recursive"
  | grouping => "grouping"
  | testing => "testing"
  | function => "function"
  | self => "self"
  | wildcard => "wildcard"
  | constant => "constant"

end SelectorKind

def Selector.kind : Selector → SelectorKind
  | .property _ => .property
  | .reverse _ => .reverse
  | .path .. => .path
  | .union .. => .union
  | .intersection .. => .intersection
  | .recursive .. => .recursive
  | .grouping _ => .grouping
  | .testing .. => .testing
  | .function .. => .function
  | .self => .self
  | .wildcard => .wildcard
  | .constant _ => .constant

inductive TestKind where
  | isA
  | and
  | or
  | not
  | comparison
  | pathEquality
  | pathExists
  | language
  | datatype
deriving DecidableEq, Repr

namespace TestKind

def all : List TestKind :=
  [isA, and, or, not, comparison, pathEquality, pathExists, language, datatype]

theorem mem_all (k : TestKind) : k ∈ all := by cases k <;> decide

def name : TestKind → String
  | isA => "is-a"
  | and => "and"
  | or => "or"
  | not => "not"
  | comparison => "comparison"
  | pathEquality => "path-equality"
  | pathExists => "path-exists"
  | language => "language"
  | datatype => "datatype"

end TestKind

def Test.kind : Test → TestKind
  | .isA _ => .isA
  | .and .. => .and
  | .or .. => .or
  | .not _ => .not
  | .comparison .. => .comparison
  | .pathEquality .. => .pathEquality
  | .pathExists _ => .pathExists
  | .language _ => .language
  | .datatype _ => .datatype

end GraphPath
