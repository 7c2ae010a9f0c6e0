import GraphPath.Text.Blank
import GraphPath.Vocabulary

/-!
# Settings

The choices that a user makes about compiled queries: the names of variables, how far repetitions
are unrolled, whether answers are distinct, and additional short names.
-/

namespace GraphPath

/-- How far repetitions are unrolled. -/
structure RecursionLimits where
  /-- The depth used for a repetition without upper bound. -/
  maxDepth : Nat := 5
  /-- Whether a repetition without upper bound is refused. -/
  strict : Bool := false
  /-- The depth that no repetition may exceed. -/
  maxExplicitDepth : Nat := 64
deriving DecidableEq

structure Settings where
  /-- The name of the variable that queries ask for. -/
  resultVariable : String := "x"
  /-- What the names of fresh variables start with. -/
  variableStem : String := "v"
  recursion : RecursionLimits := {}
  distinct : Bool := true
  /-- Short names besides the common ones. -/
  vocabulary : Vocabulary := Table.empty
deriving DecidableEq

namespace Settings

/-- What makes settings unusable. -/
inductive Fault where
  | emptyName (field : String)
  | badName (field name : String)
  | collision (name stem : String)
  | noDepth
  | depthAboveCeiling (ceiling depth : Nat)
  | emptyNamespace (short : String)
  | badShortName (short : String)
deriving DecidableEq

def Fault.message : Fault → String
  | emptyName field => s!"{field} must not be empty"
  | badName field name => s!"{field} '{name}' may only contain ASCII letters, digits and '_'"
  | collision name stem =>
    s!"result_variable '{name}' collides with fresh variables prefixed '{stem}'"
  | noDepth => "recursion.max_depth must be at least 1"
  | depthAboveCeiling ceiling depth =>
    s!"recursion.max_explicit_depth ({ceiling}) must not be below recursion.max_depth ({depth})"
  | emptyNamespace short => s!"prefix '{short}' has an empty namespace"
  | badShortName short => s!"prefix '{short}' must not contain ':' or whitespace"

def isVariableChar (c : Char) : Bool := c.isAlphanum || c = '_'

/-- Whether the name of a variable is made of one or more ASCII letters, digits and underscores. -/
def checkName (field name : String) : Except Fault Unit :=
  if name.isEmpty then .error (.emptyName field)
  else if name.toList.all isVariableChar then .ok ()
  else .error (.badName field name)

/-- The text after a given beginning. -/
def dropStem : List Char → List Char → Option (List Char)
  | [], s => some s
  | c :: stem, c' :: s => if c = c' then dropStem stem s else none
  | _ :: _, [] => none

/-- Whether a name is that of a fresh variable: the stem with one or more digits after it. -/
def looksFresh (stem name : String) : Bool :=
  match dropStem stem.toList name.toList with
  | some digits => !digits.isEmpty && digits.all Char.isDigit
  | none => false

/-- Checks one short name and its namespace. -/
def checkEntry (entry : String × String) : Except Fault Unit :=
  if (Text.trim entry.2.toList).isEmpty then .error (.emptyNamespace entry.1)
  else if entry.1.toList.any (fun c => c = ':' || Text.isBlank c) then
    .error (.badShortName entry.1)
  else .ok ()

/-- Checks that the settings give well-formed queries; the first fault counts. -/
def validate (s : Settings) : Except Fault Unit := do
  checkName "result_variable" s.resultVariable
  checkName "variable_prefix" s.variableStem
  if looksFresh s.variableStem s.resultVariable then
    throw (.collision s.resultVariable s.variableStem)
  if s.recursion.maxDepth = 0 then
    throw .noDepth
  if s.recursion.maxExplicitDepth < s.recursion.maxDepth then
    throw (.depthAboveCeiling s.recursion.maxExplicitDepth s.recursion.maxDepth)
  s.vocabulary.entries.forM checkEntry

end Settings

end GraphPath
