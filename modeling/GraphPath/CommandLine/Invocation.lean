import GraphPath.CommandLine.Scan
import GraphPath.Query.Basic

/-!
# Invocations

A complete command line: what is to be done with which criterion.
-/

namespace GraphPath.CommandLine

/-- A criterion with the parts of a query around it, as texts. -/
structure Request where
  path : String
  /-- The value that the path is to match, and how. -/
  value : Option (String × MatchOp) := none
  /-- Short names with their namespaces. -/
  declarations : List (String × String) := []
  graph : Option String := none
  type : Option String := none
  orderBy : Option (String × Direction) := none
  limit : Option Nat := none
  offset : Option Nat := none
deriving DecidableEq

inductive Task where
  /-- Show the query. -/
  | compile
  /-- Find the resources in a file of statements. -/
  | run (data : String)
deriving DecidableEq

structure Invocation where
  level : Level
  /-- The settings file. -/
  config : Option String
  task : Task
  request : Request
deriving DecidableEq

namespace Scan

/-- The request that follows a command. How to match or to order means nothing without the value or
the path that it is about. -/
def request (s : Scan) : Except UsageError Request := do
  let text (o : Opt) : Option String := s.value? (.option o)
  match s.value? (.word .path) with
  | none => throw .missingArgument
  | some path =>
    if s.has (.option .op) && (text .value).isNone then throw .missingArgument
    if s.has (.option .desc) && (text .orderBy).isNone then throw .missingArgument
    let op := ((text .op).bind MatchOp.ofName?).getD (.comparison .eq)
    let direction := if s.has (.option .desc) then .descending else .ascending
    return {
      path := path
      value := (text .value).map fun raw => (raw, op)
      declarations := (s.values (.option .declare)).filterMap readDeclaration?
      graph := text .graph
      type := text .type
      orderBy := (text .orderBy).map fun raw => (raw, direction)
      limit := (text .limit).bind readCount?
      offset := (text .offset).bind readCount? }

/-- What the command does. -/
def task (s : Scan) (command : Command) : Except UsageError Task :=
  match command with
  | .compile => .ok .compile
  | .run =>
    match s.value? (.word .data) with
    | some data => .ok (.run data)
    | none => .error .missingArgument

/-- The level of the log: the one that is named, else a detailed one if that is asked for. What
follows the command counts before what precedes it. -/
def level (outer inner : Scan) : Level :=
  match inner.value? (.option .logLevel) <|> outer.value? (.option .logLevel) with
  | some name => (Level.ofName? name).getD .warn
  | none =>
    if inner.has (.option .verbose) || outer.has (.option .verbose) then .debug else .warn

end Scan

/-- Reads a command line without the name of the program. -/
def Invocation.parse (args : List String) : Except UsageError Invocation := do
  let (outer, found) ← Scan.untilCommand {} args
  match found with
  | none =>
    let outer ← outer.settle
    throw (if outer.given.isEmpty then .nothingGiven else .missingCommand)
  | some (command, rest) =>
    let inner ← Scan.ofCommand command rest
    let task ← inner.task command
    let request ← inner.request
    let outer ← outer.settle
    return {
      level := outer.level inner
      config := inner.value? (.option .config) <|> outer.value? (.option .config)
      task := task
      request := request }

end GraphPath.CommandLine
