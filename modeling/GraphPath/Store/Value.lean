import GraphPath.Pattern.Basic
import GraphPath.Text.LetterCase

/-!
# Values of expressions

When a node counts as true, how two nodes compare, and what the functions of the store compute.
An expression without a value, such as the order of a number and a text, gives `none`.
-/

namespace GraphPath

namespace Node

def plain (value : String) : Node := .literal (.plain value)

def boolean (b : Bool) : Node := .literal (.boolean b)

end Node

/-- Whether a literal counts as true. Booleans do as they read, numbers unless they are zero or not
a number, and texts unless they are empty. -/
def Literal.effectiveBoolean (l : Literal) : Option Bool :=
  if l.datatype = some Iri.xsdBoolean then
    if l.value = "true" || l.value = "1" then some true
    else if l.value = "false" || l.value = "0" then some false
    else none
  else
    match l.number? with
    | some n => some (!n.isZero && n ≠ .nan)
    | none => if l.datatype.isNone then some !l.value.isEmpty else none

/-- Whether a node counts as true; a resource is neither true nor false. -/
def Node.effectiveBoolean : Node → Option Bool
  | .iri _ => none
  | .literal l => l.effectiveBoolean

/-- A value that may be missing, as a truth value. -/
def truth? (value : Option Node) : Option Bool := value.bind Node.effectiveBoolean

/-- A truth value that may be missing, as a value. -/
def ofTruth (truth : Option Bool) : Option Node := truth.map Node.boolean

/-- False as soon as one side is false, true if both are true. -/
def bothTrue : Option Bool → Option Bool → Option Bool
  | some false, _ => some false
  | _, some false => some false
  | some true, some true => some true
  | _, _ => none

/-- True as soon as one side is true, false if both are false. -/
def someTrue : Option Bool → Option Bool → Option Bool
  | some true, _ => some true
  | _, some true => some true
  | some false, some false => some false
  | _, _ => none

namespace Comparison

/-- Whether the comparison holds of two values in a given order. -/
def admits : Comparison → Ordering → Bool
  | eq, o => o.isEq
  | ne, o => o.isNe
  | lt, o => o.isLT
  | le, o => o.isLE
  | gt, o => o.isGT
  | ge, o => o.isGE

/-- The order of two literals of one datatype by their text. -/
def textOrder? (left right : Node) : Option Ordering :=
  match left, right with
  | .literal l, .literal r =>
    if l.effectiveDatatype = r.effectiveDatatype then some (compare l.value r.value) else none
  | _, _ => none

/-- Compares two nodes: numbers by value, other nodes by identity or by the order of their texts. -/
def apply (op : Comparison) (left right : Node) : Option Bool :=
  match left.number?, right.number? with
  | some l, some r => (l.compare? r).map op.admits
  | _, _ =>
    match op with
    | .eq => some (left = right)
    | .ne => some (left ≠ right)
    | _ => (textOrder? left right).map op.admits

end Comparison

/-- The literal with another text: a language is kept, a datatype is not. -/
def Literal.withText (l : Literal) (text : List Char) : Literal :=
  match l.language with
  | some tag => .tagged (String.ofList text) tag
  | none => .plain (String.ofList text)

/-- Whether a language range covers a tag: `*` covers every tag that is not empty, another range
itself and its extensions by further subtags. -/
def languageMatches (tag range : String) : Bool :=
  let tag := tag.toList.map Char.toLower
  let range := range.toList.map Char.toLower
  if range = ['*'] then !tag.isEmpty
  else tag = range || (range ++ ['-']).isPrefixOf tag

/-- Whether a text occurs within another one. -/
def occursIn (part : List Char) : List Char → Bool
  | [] => part.isEmpty
  | c :: rest => part.isPrefixOf (c :: rest) || occursIn part rest

namespace Builtin

/-- The value of a function; `none` if an argument is missing or of the wrong kind. -/
def apply : Builtin → List Node → Option Node
  | str, n :: _ => some (.plain n.text)
  | lcase, .literal l :: _ => some (.literal (l.withText (Text.toLower l.value.toList)))
  | ucase, .literal l :: _ => some (.literal (l.withText (Text.toUpper l.value.toList)))
  | strlen, .literal l :: _ => some (.literal (.integer l.value.length))
  | concat, args =>
    (args.mapM Node.literal?).map fun literals =>
      .plain (String.join (literals.map Literal.value))
  | lang, .literal l :: _ => some (.plain (l.language.getD ""))
  | datatype, .literal l :: _ => some (.iri l.effectiveDatatype)
  | langMatches, .literal tag :: .literal range :: _ =>
    some (.boolean (languageMatches tag.value range.value))
  | contains, .literal whole :: .literal part :: _ =>
    some (.boolean (occursIn part.value.toList whole.value.toList))
  | _, _ => none

end Builtin

end GraphPath
