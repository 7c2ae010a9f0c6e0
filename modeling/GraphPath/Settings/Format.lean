import GraphPath.Settings.Json
import GraphPath.Settings.Toml
import GraphPath.Settings.Yaml

/-!
# Settings files

The format of a settings file is told by the extension of its name. Settings that are read are also
validated.
-/

namespace GraphPath

inductive Format where
  | toml
  | yaml
  | json
deriving DecidableEq, Repr

namespace Format

def name : Format → String
  | toml => "toml"
  | yaml => "yaml"
  | json => "json"

def all : List Format := [toml, yaml, json]

def ofName? (name : String) : Option Format := all.find? (·.name = name)

def ofExtension? (extension : String) : Option Format :=
  if extension = "yml" then some yaml else ofName? extension

end Format

namespace Settings

/-- The last part of a path that names a file. -/
def fileName? (path : String) : Option String :=
  match ((path.splitOn "/").filter fun part => part ≠ "" && part ≠ ".").getLast? with
  | some ".." => none
  | part => part

/-- What follows the last point of a file name, unless the point comes first. -/
def extension? (fileName : String) : Option String :=
  match (fileName.splitOn ".").reverse with
  | extension :: before :: more => if before = "" && more = [] then none else some extension
  | _ => none

/-- Why settings cannot be loaded. -/
inductive LoadError where
  | unsupportedFile (path : String)
  | unreadable (path : String)
  | malformed (format : Format)
  | invalid (fault : Fault)
deriving DecidableEq

def LoadError.message : LoadError → String
  | unsupportedFile path => s!"Unsupported config format: {path}"
  | unreadable path => s!"Failed to read config file {path}"
  | malformed format => s!"Failed to parse {format.name} config"
  | invalid fault => s!"Invalid configuration: {fault.message}"

/-- The format of a file, by its extension up to the case of ASCII letters. -/
def formatOf (path : String) : Except LoadError Format :=
  match (fileName? path).bind extension? with
  | none => .error (.unsupportedFile path)
  | some extension =>
    match Format.ofExtension? (extension.map Char.toLower) with
    | some format => .ok format
    | none => .error (.unsupportedFile path)

/-- The document in a text. -/
def document? (format : Format) (content : List Char) : Option Document :=
  match format with
  | .toml => Toml.document? content
  | .yaml => Yaml.document? content
  | .json => Json.document? content

/-- Reads and validates settings. -/
def read (format : Format) (content : String) : Except LoadError Settings := do
  match (document? format content.toList).bind Document.settings? with
  | none => .error (.malformed format)
  | some settings =>
    settings.validate.mapError .invalid
    return settings

/-- Loads the settings of a file, given a way to its content. -/
def load (contentOf : String → Option String) (path : String) : Except LoadError Settings := do
  let format ← formatOf path
  match contentOf path with
  | none => .error (.unreadable path)
  | some content => read format content

end Settings

end GraphPath
