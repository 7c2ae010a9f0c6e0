import GraphPath.Path.Selector

/-!
# Errors of compilation
-/

namespace GraphPath

/-- What a registry has a rule for. -/
inductive Construct where
  | selector (kind : SelectorKind)
  | test (kind : TestKind)
  | function (name : String)
deriving DecidableEq

def Construct.describe : Construct → String
  | selector kind => s!"selector kind '{kind.name}'"
  | test kind => s!"test kind '{kind.name}'"
  | function name => s!"function '{name}'"

/-- How many arguments a function takes. -/
structure Arity where
  least : Nat
  /-- The largest number, if there is one. -/
  most : Option Nat
deriving DecidableEq

namespace Arity

def accepts (a : Arity) (count : Nat) : Bool :=
  a.least ≤ count && a.most.all (count ≤ ·)

def describe (a : Arity) : String :=
  match a.most with
  | none => s!"at least {a.least}"
  | some most => if a.least = most then toString most else s!"{a.least} to {most}"

end Arity

/-- Why a selector has no compiled form. -/
inductive CompileError where
  | unsupported (construct : Construct)
  | invertedBounds (min max : Nat)
  /-- A rule of an extension refuses what it is given. -/
  | refused (why : String)
  | recursionLimit (min bound : Nat)
  | arity (function : String) (expected : Arity) (found : Nat)
  /-- A repetition to more depths than memory has room for. -/
  | noRoom (depths : Nat)
deriving DecidableEq

def CompileError.message : CompileError → String
  | unsupported construct =>
    s!"Unsupported construct: no evaluator registered for {construct.describe}"
  | invertedBounds min max =>
    "Translation error: recursive selector has inverted bounds \x7b" ++ toString min ++ "," ++
      toString max ++ "\x7d"
  | refused why => s!"Translation error: {why}"
  | recursionLimit min bound =>
    s!"Recursive selector from depth {min} cannot be unrolled within the limit of {bound}"
  | arity function expected found =>
    s!"Function '{function}' expects {expected.describe} argument(s), got {found}"
  | noRoom _ => "capacity overflow"

end GraphPath
