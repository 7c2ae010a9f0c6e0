import GraphPath.Iri
import GraphPath.Table

/-!
# Vocabularies

Short names for namespaces. A compact name `short:local` stands for the IRI made of the namespace
and the local part.
-/

namespace GraphPath

abbrev Vocabulary := Table String

namespace Vocabulary

/-- The short names that are always known. -/
def common : Vocabulary :=
  Table.empty.insertAll
    [("rdf", "http://www.w3.org/1999/02/22-rdf-syntax-ns#"),
     ("rdfs", "http://www.w3.org/2000/01/rdf-schema#"),
     ("xsd", "http://www.w3.org/2001/XMLSchema#"),
     ("owl", "http://www.w3.org/2002/07/owl#"),
     ("dc", "http://purl.org/dc/elements/1.1/"),
     ("dcterms", "http://purl.org/dc/terms/"),
     ("foaf", "http://xmlns.com/foaf/0.1/"),
     ("skos", "http://www.w3.org/2004/02/skos/core#"),
     ("oa", "http://www.w3.org/ns/oa#")]

/-- The IRI of a compact name, when its short name is known. The result is not checked. -/
def expand (v : Vocabulary) (short name : String) : Option Iri :=
  (v.get? short).map fun namespaceText => ⟨namespaceText ++ name⟩

end Vocabulary

end GraphPath
