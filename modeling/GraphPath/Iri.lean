import GraphPath.Text.Blank
import GraphPath.Text.Visible

/-!
# IRIs

The names of resources. A text from outside is checked before it becomes an IRI; an IRI that was
not checked is still written safely, since what may not stand between its brackets is
percent-encoded.
-/

namespace GraphPath

structure Iri where
  text : String
deriving DecidableEq, Ord, Repr

namespace Iri

/-- The characters that may not stand in an IRI: the delimiters of the query language, blanks and
control characters. -/
def isForbidden (c : Char) : Bool :=
  "<>\"\x7b\x7d|^\x60\\".toList.contains c || c ≤ ' ' || Text.isBlank c

inductive Fault where
  | empty
  | forbidden (c : Char)
deriving DecidableEq, Repr

/-- A text that is no IRI, and why. -/
structure Error where
  text : String
  fault : Fault
deriving DecidableEq, Repr

/-- Reads a text as an IRI; the first forbidden character is reported. -/
def parse (text : String) : Except Error Iri :=
  if text.isEmpty then .error ⟨text, .empty⟩
  else
    match text.toList.find? isForbidden with
    | some c => .error ⟨text, .forbidden c⟩
    | none => .ok ⟨text⟩

def Fault.message : Fault → String
  | .empty => "IRI is empty"
  | .forbidden c => "character " ++ Text.quoteVisibly '\'' [c] ++ " is not allowed"

def Error.message (e : Error) : String := s!"Invalid IRI `{e.text}`: {e.fault.message}"

def upperHexDigit (n : Nat) : Char :=
  if n < 10 then Char.ofNat ('0'.toNat + n) else Char.ofNat ('A'.toNat + (n - 10))

def percentByte (b : UInt8) : List Char :=
  ['%', upperHexDigit (b.toNat / 16), upperHexDigit (b.toNat % 16)]

/-- A character as it stands between the brackets. -/
def encodeChar (c : Char) : List Char :=
  if isForbidden c then (String.utf8EncodeChar c).flatMap percentByte else [c]

/-- The IRI between angle brackets. -/
def render (i : Iri) : String := "<" ++ String.ofList (i.text.toList.flatMap encodeChar) ++ ">"

/-! Names of the standard vocabularies. -/

def rdf (name : String) : Iri := ⟨"http://www.w3.org/1999/02/22-rdf-syntax-ns#" ++ name⟩

def xsd (name : String) : Iri := ⟨"http://www.w3.org/2001/XMLSchema#" ++ name⟩

def rdfType : Iri := rdf "type"

def langString : Iri := rdf "langString"

def xsdString : Iri := xsd "string"

def xsdInteger : Iri := xsd "integer"

def xsdDecimal : Iri := xsd "decimal"

def xsdBoolean : Iri := xsd "boolean"

/-- The datatypes whose literals are compared by numeric value. -/
def numericTypes : List Iri :=
  [xsdInteger, xsdDecimal, xsd "double", xsd "int", xsd "long", xsd "float"]

end Iri

end GraphPath
