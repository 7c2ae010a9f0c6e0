import GraphPath.CommandLine.Invocation
import GraphPath.Query.Sparql
import GraphPath.Session.Basic
import GraphPath.Settings.Format
import GraphPath.Store.Basic

/-!
# Carrying out an invocation

The settings are loaded, then the statements if there are any to search, and then a session is made
of the request. Files are reached through a function from their names to their contents.
-/

namespace GraphPath.CommandLine

/-- Why an invocation fails. -/
inductive Error where
  | settings (e : Settings.LoadError)
  | unreadableData (path : String)
  | statements (e : StatementError)
  | session (e : SessionError)
  /-- A value that is to be an IRI and is not even like one. -/
  | notIri (o : Opt) (raw : String)
  | invalidIri (o : Opt) (e : Iri.Error)
deriving DecidableEq

def Opt.render (o : Opt) : String := "--" ++ o.long

def Error.message : Error → String
  | settings e => e.message
  | unreadableData path => s!"Failed to read fixture {path}"
  | statements e => e.report?.getD s!"Fixture line {e.line}: column {e.column}"
  | session (.parse e) => e.report?.getD s!"Invalid path expression `{e.input}`"
  | session (.compile e) => e.message
  | session (.execution e) => e.message
  | notIri o raw => s!"{o.render} must be an IRI, got '{raw}'"
  | invalidIri o e => s!"invalid {o.render}: {e.message}"

/-- A node as in a path; any other text is taken as a plain literal. -/
def readNode (v : Vocabulary) (raw : String) : Node :=
  match (Parser.node v).run (Text.trim raw.toList) with
  | .ok n => n
  | .error _ => .literal (.plain raw)

/-- An IRI as in a path, or one without brackets around it. -/
def readIri (v : Vocabulary) (o : Opt) (raw : String) : Except Error Iri :=
  match readNode v raw with
  | .iri i => .ok i
  | .literal _ =>
    if !raw.toList.any (fun c => c = ':' || c = '"') || raw.toList.head? = some '"' then
      .error (.notIri o raw)
    else (Iri.parse (String.ofList (Text.trim raw.toList))).mapError (.invalidIri o)

namespace Request

/-- The short names for the statements. -/
def dataVocabulary (r : Request) : Vocabulary := Vocabulary.common.insertAll r.declarations

/-- The short names for the path and the other parts of the request. -/
def vocabulary (r : Request) (settings : Settings) : Vocabulary :=
  (Session.start .builtin settings none).vocabulary.insertAll r.declarations

/-- The session of a request. -/
def session (r : Request) (settings : Settings) : Except Error Session := do
  let v := r.vocabulary settings
  let graph ← r.graph.mapM (readIri v .graph)
  let type ← r.type.mapM (readIri v .type)
  let start : Session :=
    { Session.start .builtin settings graph with vocabulary := v, types := type.toList }
  let constraint := r.value.map fun (raw, op) => ⟨op, readNode v raw⟩
  let s ← (start.addPath r.path constraint).mapError fun e => .session (.parse e)
  let s ← match r.orderBy with
    | some (path, direction) =>
      (s.addOrder path direction).mapError fun e => .session (.parse e)
    | none => pure s
  return { s with limit := r.limit, offset := r.offset }

end Request

/-- What an invocation gives. -/
inductive Output where
  | sparql (text : String)
  | resources (iris : List Iri)
deriving DecidableEq

namespace Invocation

def loadSettings (contentOf : String → Option String) (i : Invocation) : Except Error Settings :=
  match i.config with
  | some path => (Settings.load contentOf path).mapError .settings
  | none => .ok {}

def loadStore (contentOf : String → Option String) (path : String) (v : Vocabulary) :
    Except Error Store := do
  match contentOf path with
  | none => throw (.unreadableData path)
  | some text =>
    let (store, _) ← (Store.load {} v text).mapError .statements
    return store

/-- Carries out an invocation, given a way to the contents of files. -/
def run (contentOf : String → Option String) (i : Invocation) : Except Error Output := do
  let settings ← i.loadSettings contentOf
  match i.task with
  | .compile =>
    let session ← i.request.session settings
    let query ← session.build.mapError fun e => .session (.compile e)
    return .sparql query.toSparql
  | .run data =>
    let store ← loadStore contentOf data i.request.dataVocabulary
    let session ← i.request.session settings
    let iris ← (session.execute store.select).mapError .session
    return .resources iris

/-- The files that an invocation reads. -/
def files (i : Invocation) : List String :=
  i.config.toList ++
    match i.task with
    | .compile => []
    | .run data => [data]

end Invocation

end GraphPath.CommandLine
