import GraphPath.Parser.Token
import GraphPath.Session.Criterion

/-!
# Options of the command line

The commands, the words that follow them, and the options with the values they take.
-/

namespace GraphPath.CommandLine

/-- Why a command line is not carried out. -/
inductive UsageError where
  | helpRequested
  | versionRequested
  | nothingGiven
  | missingCommand
  | unknownCommand
  | missingArgument
  | unknownArgument
  /-- A value that is missing or not among those allowed. -/
  | refusedValue
  /-- A value that cannot be read. -/
  | malformedValue
  /-- A value after an option that takes none. -/
  | unexpectedValue
  /-- An option that may be given only once. -/
  | repeatedOption
deriving DecidableEq, Repr

def UsageError.message : UsageError → String
  | helpRequested => "help requested"
  | versionRequested => "version requested"
  | nothingGiven => "no arguments given"
  | missingCommand => "a command is required"
  | unknownCommand => "unrecognized command"
  | missingArgument => "a required argument is missing"
  | unknownArgument => "unexpected argument"
  | refusedValue => "a value is missing or not allowed"
  | malformedValue => "a value cannot be read"
  | unexpectedValue => "a value was given to an option that takes none"
  | repeatedOption => "an option was given more than once"

/-- How much is logged. -/
inductive Level where
  | off
  | error
  | warn
  | info
  | debug
  | trace
deriving DecidableEq, Repr

namespace Level

def all : List Level := [off, error, warn, info, debug, trace]

def name : Level → String
  | off => "off"
  | error => "error"
  | warn => "warn"
  | info => "info"
  | debug => "debug"
  | trace => "trace"

def ofName? (name : String) : Option Level := all.find? (·.name = name)

end Level

/-- A natural number that fits a machine word, perhaps with a plus sign. -/
def readCount? (raw : String) : Option Nat :=
  let digits := if raw.toList.head? = some '+' then raw.toList.tail else raw.toList
  if digits.isEmpty || !digits.all isDigit then none
  else if digitsValue digits < Parser.wordLimit then some (digitsValue digits)
  else none

/-- A short name and its namespace, with an equals sign between them. -/
def readDeclaration? (raw : String) : Option (String × String) :=
  match raw.toList.dropWhile (· ≠ '=') with
  | [] => none
  | _ :: ns =>
    if ns.isEmpty then none
    else some (String.ofList (raw.toList.takeWhile (· ≠ '=')), String.ofList ns)

inductive Opt where
  | help
  | version
  | logLevel
  | verbose
  | config
  | value
  | op
  | declare
  | graph
  | type
  | orderBy
  | desc
  | limit
  | offset
deriving DecidableEq, Repr

namespace Opt

def long : Opt → String
  | help => "help"
  | version => "version"
  | logLevel => "log-level"
  | verbose => "verbose"
  | config => "config"
  | value => "value"
  | op => "op"
  | declare => "prefix"
  | graph => "graph"
  | type => "type"
  | orderBy => "order-by"
  | desc => "desc"
  | limit => "limit"
  | offset => "offset"

def short? : Opt → Option Char
  | help => some 'h'
  | version => some 'V'
  | logLevel => some 'l'
  | verbose => some 'v'
  | config => some 'C'
  | declare => some 'p'
  | graph => some 'g'
  | type => some 't'
  | _ => none

def takesValue : Opt → Bool
  | help | version | verbose | desc => false
  | _ => true

/-- The options that may stand before the command. -/
def general : List Opt := [help, version, logLevel, verbose, config]

/-- The options that may follow a command. -/
def ofCommand : List Opt :=
  [help, logLevel, verbose, config, value, op, declare, graph, type, orderBy, desc, limit, offset]

end Opt

/-- The words that follow a command. -/
inductive Word where
  | data
  | path
deriving DecidableEq, Repr

inductive Command where
  | compile
  | run
deriving DecidableEq, Repr

namespace Command

def ofName? : String → Option Command
  | "compile" => some compile
  | "run" => some run
  | _ => none

def words : Command → List Word
  | compile => [.path]
  | run => [.data, .path]

end Command

/-- What takes a value on the command line. -/
inductive Slot where
  | option (o : Opt)
  | word (w : Word)
deriving DecidableEq, Repr

namespace Slot

def isRepeatable : Slot → Bool
  | option .declare => true
  | _ => false

/-- Refuses a value unless it can be used. -/
def check (slot : Slot) (value : String) : Except UsageError Unit :=
  match slot with
  | option .logLevel => if (Level.ofName? value).isSome then .ok () else .error .refusedValue
  | option .op => if (MatchOp.ofName? value).isSome then .ok () else .error .refusedValue
  | option .config => if value.isEmpty then .error .refusedValue else .ok ()
  | word .data => if value.isEmpty then .error .refusedValue else .ok ()
  | option .declare => if (readDeclaration? value).isSome then .ok () else .error .malformedValue
  | option .limit => if (readCount? value).isSome then .ok () else .error .malformedValue
  | option .offset => if (readCount? value).isSome then .ok () else .error .malformedValue
  | _ => .ok ()

end Slot

end GraphPath.CommandLine
