import GraphPath.Iri
import GraphPath.Number.Decimal

/-!
# Nodes

A node is a resource, named by its IRI, or a literal: a text with a language tag or a datatype.
-/

namespace GraphPath

structure Literal where
  value : String
  language : Option String
  datatype : Option Iri
deriving DecidableEq, Ord, Repr

namespace Literal

def plain (value : String) : Literal := ⟨value, none, none⟩

/-- A text in a language; tags are kept in small letters. -/
def tagged (value tag : String) : Literal := ⟨value, some (tag.map Char.toLower), none⟩

/-- A text with a datatype; a string needs none. -/
def typed (value : String) (datatype : Iri) : Literal :=
  if datatype = Iri.xsdString then plain value else ⟨value, none, some datatype⟩

def integer (n : Int) : Literal := typed (toString n) Iri.xsdInteger

def boolean (b : Bool) : Literal := typed (if b then "true" else "false") Iri.xsdBoolean

/-- The datatype as a query sees it. -/
def effectiveDatatype (l : Literal) : Iri :=
  match l.datatype, l.language with
  | some datatype, _ => datatype
  | none, some _ => Iri.langString
  | none, none => Iri.xsdString

/-- The numeric value of a literal with a numeric datatype. -/
def number? (l : Literal) : Option Binary64 :=
  match l.datatype with
  | some datatype =>
    if Iri.numericTypes.contains datatype then Binary64.read? (Text.trim l.value.toList) else none
  | none => none

def escapeChar (c : Char) : List Char :=
  if c = '"' then ['\\', '"']
  else if c = '\\' then ['\\', '\\']
  else if c = '\n' then ['\\', 'n']
  else if c = '\r' then ['\\', 'r']
  else if c = '\t' then ['\\', 't']
  else [c]

/-- The literal between quotes, with its language or else its datatype. -/
def render (l : Literal) : String :=
  "\"" ++ String.ofList (l.value.toList.flatMap escapeChar) ++ "\"" ++
    match l.language, l.datatype with
    | some tag, _ => "@" ++ tag
    | none, some datatype => "^^" ++ datatype.render
    | none, none => ""

end Literal

/-- Resources come before literals. -/
inductive Node where
  | iri (i : Iri)
  | literal (l : Literal)
deriving DecidableEq, Ord, Repr

namespace Node

def iri? : Node → Option Iri
  | iri i => some i
  | literal _ => none

def literal? : Node → Option Literal
  | iri _ => none
  | literal l => some l

def render : Node → String
  | iri i => i.render
  | literal l => l.render

/-- The numeric value of a node that has one. -/
def number? : Node → Option Binary64
  | iri _ => none
  | literal l => l.number?

/-- The text of an IRI or the value of a literal. -/
def text : Node → String
  | iri i => i.text
  | literal l => l.value

end Node

end GraphPath
