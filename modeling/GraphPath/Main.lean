import GraphPath.CommandLine.Run

/-!
# The program

Reads the command line and the files it names, and prints the query or the resources found.
-/

namespace GraphPath.CommandLine

/-- The content of a file, unless it cannot be read. -/
def readFile? (path : String) : IO (Option String) := do
  try
    let content ← IO.FS.readFile path
    return some content
  catch _ => return none

def Output.lines : Output → List String
  | sparql text => [text]
  | resources iris => iris.map Iri.text

/-- How the program is used. -/
def usage : String :=
  "Usage: graphpath [OPTIONS] compile <PATH>\n       graphpath [OPTIONS] run <DATA> <PATH>\n" ++
  "Options: --value V --op OP -p NAME=NAMESPACE -g GRAPH -t TYPE --order-by PATH --desc\n" ++
  "         --limit N --offset N -l LEVEL -v -C FILE -h -V"

/-- Prints a rejected command line; only a request for help is no failure. -/
def reportUsage (e : UsageError) : IO UInt32 := do
  match e with
  | .helpRequested =>
    IO.println usage
    return 0
  | .versionRequested =>
    IO.println "graphpath"
    return 0
  | e =>
    IO.eprintln s!"error: {e.message}\n\n{usage}"
    return 2

def carryOut (i : Invocation) : IO UInt32 := do
  let contents ← i.files.mapM fun path => do return (path, ← readFile? path)
  match i.run fun path => (contents.lookup path).join with
  | .ok output =>
    for line in output.lines do
      IO.println line
    return 0
  | .error e =>
    IO.eprintln s!"Error: {e.message}"
    return 1

end GraphPath.CommandLine

def main (args : List String) : IO UInt32 :=
  match GraphPath.CommandLine.Invocation.parse args with
  | .ok i => GraphPath.CommandLine.carryOut i
  | .error e => GraphPath.CommandLine.reportUsage e
