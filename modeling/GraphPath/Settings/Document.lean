import GraphPath.Number.Numeral
import GraphPath.Parser.Token
import GraphPath.Settings.Basic

/-!
# Documents

What a settings file holds once its format is read: values, lists and maps. Settings are taken from
a document strictly: a value of the wrong kind is refused, and so is a setting given twice, while
names that mean nothing are passed over.
-/

namespace GraphPath

inductive Document where
  | boolean (b : Bool)
  | natural (n : Nat)
  | text (s : String)
  /-- A word without quotes, to be read as what is expected of it. -/
  | word (s : String)
  /-- A value that no setting takes. -/
  | other
  /-- The fields of a record in their order. Items beyond its fields are an error, unless they are
  `spare`. -/
  | list (spare : Bool) (items : List Document)
  | map (entries : List (String × Document))

namespace Document

def text? : Document → Option String
  | text s => some s
  | word s => some s
  | _ => none

def boolean? : Document → Option Bool
  | boolean b => some b
  | word s =>
    if ["true", "True", "TRUE"].contains s then some true
    else if ["false", "False", "FALSE"].contains s then some false
    else none
  | _ => none

/-- A natural number as a word: decimal without leading zeros, or marked with another base. -/
def wordNatural? (s : List Char) : Option Nat :=
  let digits := if s.head? = some '+' then s.tail else s
  match markedDigits? digits with
  | some (base, digits) => numeralValue? base digits
  | none => if digits.head? = some '0' && digits ≠ ['0'] then none else numeralValue? 10 digits

/-- A natural number that fits a machine word. -/
def natural? (d : Document) : Option Nat := do
  let n ← match d with
    | natural n => some n
    | word s => wordNatural? s.toList
    | _ => none
  if n < Parser.wordLimit then some n else none

/-- The entries of a map; nothing at all is an empty map. -/
def entries? : Document → Option (List (String × Document))
  | map entries => some entries
  | word s => if s.isEmpty then some [] else none
  | _ => none

/-- The short names of a map from texts to texts; the last of several with one name counts. -/
def vocabulary? (d : Document) : Option Vocabulary := do
  let pairs ← (← d.entries?).mapM fun (name, value) => do return (name, ← value.text?)
  return Table.empty.insertAll pairs

/-- The values of an entry of a map. -/
def valuesOf (name : String) (entries : List (String × Document)) : List Document :=
  (entries.filter (·.1 = name)).map Prod.snd

/-- Whether a document is a record with the given fields at most: a list that is not too long, or a
map that has none of them twice. -/
def isRecord (names : List String) : Document → Bool
  | list spare items => spare || items.length ≤ names.length
  | d =>
    match d.entries? with
    | some entries => names.all fun name => (valuesOf name entries).length ≤ 1
    | none => false

/-- The value of a field of a record, by its place or its name. -/
def field? (place : Nat) (name : String) : Document → Option Document
  | list _ items => items[place]?
  | map entries => (valuesOf name entries).head?
  | _ => none

/-- A field of a record as a setting, which may be left out. -/
def setting {α : Type} (d : Document) (place : Nat) (name : String) (read : Document → Option α)
    (default : α) : Option α :=
  match d.field? place name with
  | some value => read value
  | none => some default

/-- How far repetitions are unrolled, as a document says. -/
def limits? (d : Document) : Option RecursionLimits := do
  let start : RecursionLimits := {}
  guard (d.isRecord ["max_depth", "strict", "max_explicit_depth"])
  return {
    maxDepth := ← d.setting 0 "max_depth" natural? start.maxDepth
    strict := ← d.setting 1 "strict" boolean? start.strict
    maxExplicitDepth := ← d.setting 2 "max_explicit_depth" natural? start.maxExplicitDepth }

/-- The settings of a document. -/
def settings? (d : Document) : Option Settings := do
  let start : Settings := {}
  guard (d.isRecord ["result_variable", "variable_prefix", "recursion", "distinct", "prefixes"])
  return {
    resultVariable := ← d.setting 0 "result_variable" text? start.resultVariable
    variableStem := ← d.setting 1 "variable_prefix" text? start.variableStem
    recursion := ← d.setting 2 "recursion" limits? start.recursion
    distinct := ← d.setting 3 "distinct" boolean? start.distinct
    vocabulary := ← d.setting 4 "prefixes" vocabulary? start.vocabulary }

end Document

end GraphPath
