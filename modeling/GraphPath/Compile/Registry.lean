import GraphPath.Compile.Emit

/-!
# Registries

Which kinds of selectors and tests are compiled, and by which rule, and the functions that may be
called. A registry is made by registering and removing; the last step for a kind counts.
-/

namespace GraphPath

/-- The rule for a kind: the built-in one, or that of an extension. -/
inductive Rule (ρ : Type) where
  | builtin
  | extension (name : String) (rule : ρ)

/-- Compiles a selector from a context to the variable of its value. -/
abbrev SelectorRule := Selector → Variable → Emit Variable

/-- Compiles a test of a context to a condition. -/
abbrev TestRule := Test → Variable → Emit Expr

/-- Makes the call of a function under a name from the values of its arguments. -/
abbrev FunctionRule := String → List Expr → Except CompileError Expr

/-- A function of the path language that is one of the store, with the arguments it takes. -/
structure PathFunction where
  builtin : Builtin
  arity : Arity
deriving DecidableEq

namespace PathFunction

def exactly (builtin : Builtin) (count : Nat) : PathFunction := ⟨builtin, ⟨count, some count⟩⟩

/-- The call of the function under a name, if it takes that many arguments. -/
def apply (f : PathFunction) : FunctionRule := fun name args =>
  if f.arity.accepts args.length then .ok (.call f.builtin args)
  else .error (.arity name f.arity args.length)

/-- The functions that are always defined. -/
def builtins : List (String × PathFunction) :=
  [("str", exactly .str 1),
   ("lcase", exactly .lcase 1),
   ("ucase", exactly .ucase 1),
   ("strlen", exactly .strlen 1),
   ("concat", ⟨.concat, ⟨1, none⟩⟩),
   ("lang", exactly .lang 1),
   ("datatype", exactly .datatype 1),
   ("contains", exactly .contains 2)]

def rules : List (String × FunctionRule) := builtins.map fun entry => (entry.1, entry.2.apply)

end PathFunction

structure Registry where
  selectors : SelectorKind → Option (Rule SelectorRule)
  tests : TestKind → Option (Rule TestRule)
  functions : Table FunctionRule

namespace Registry

/-- The registry in which nothing is registered. -/
def empty : Registry := ⟨fun _ => none, fun _ => none, Table.empty⟩

/-- Registers the built-in rule of every kind, and the built-in functions. -/
def withBuiltins (r : Registry) : Registry where
  selectors := fun _ => some .builtin
  tests := fun _ => some .builtin
  functions := r.functions.insertAll PathFunction.rules

def builtin : Registry := empty.withBuiltins

def setSelector (r : Registry) (kind : SelectorKind) (rule : Option (Rule SelectorRule)) :
    Registry :=
  { r with selectors := fun k => if k = kind then rule else r.selectors k }

def setTest (r : Registry) (kind : TestKind) (rule : Option (Rule TestRule)) : Registry :=
  { r with tests := fun k => if k = kind then rule else r.tests k }

def registerSelector (r : Registry) (kind : SelectorKind) (name : String) (rule : SelectorRule) :
    Registry :=
  r.setSelector kind (some (.extension name rule))

def registerTest (r : Registry) (kind : TestKind) (name : String) (rule : TestRule) : Registry :=
  r.setTest kind (some (.extension name rule))

def registerFunction (r : Registry) (name : String) (f : FunctionRule) : Registry :=
  { r with functions := r.functions.insert name f }

def withoutSelector (r : Registry) (kind : SelectorKind) : Registry := r.setSelector kind none

def withoutTest (r : Registry) (kind : TestKind) : Registry := r.setTest kind none

def withoutFunction (r : Registry) (name : String) : Registry :=
  { r with functions := r.functions.erase name }

/-- The rule of a kind of selector; it is an error to have none. -/
def selectorRule (r : Registry) (kind : SelectorKind) :
    Except CompileError (Rule SelectorRule) :=
  match r.selectors kind with
  | some rule => .ok rule
  | none => .error (.unsupported (.selector kind))

def testRule (r : Registry) (kind : TestKind) : Except CompileError (Rule TestRule) :=
  match r.tests kind with
  | some rule => .ok rule
  | none => .error (.unsupported (.test kind))

def function (r : Registry) (name : String) : Except CompileError FunctionRule :=
  match r.functions.get? name with
  | some f => .ok f
  | none => .error (.unsupported (.function name))

/-- A summary of what is registered. -/
def summary (r : Registry) : String :=
  let selectors := (SelectorKind.all.filter fun k => (r.selectors k).isSome).length
  let tests := (TestKind.all.filter fun k => (r.tests k).isSome).length
  let names := r.functions.names.map fun name => Text.quoteVisibly '"' name.toList
  "EvaluatorRegistry \x7b selectors: " ++ toString selectors ++ ", tests: " ++ toString tests ++
    ", functions: [" ++ ", ".intercalate names ++ "] \x7d"

end Registry

end GraphPath
