import GraphPath.CommandLine.Options

/-!
# Scanning the command line

Arguments are read from left to right. The value of an option may be attached to it or follow it;
it is checked as soon as the next option or word is met. After `--` all arguments are words.
-/

namespace GraphPath.CommandLine

/-- What an argument looks like. -/
inductive Shape where
  /-- The mark that ends the options. -/
  | separator
  | long (name : String) (value : Option String)
  | short (letters : List Char)
  | plain
deriving DecidableEq

/-- Tells the shape of an argument. A dash alone is a plain word. -/
def Shape.of (arg : String) : Shape :=
  match arg.toList with
  | ['-', '-'] => separator
  | '-' :: '-' :: body =>
    let value := match body.dropWhile (· ≠ '=') with
      | [] => none
      | _ :: value => some (String.ofList value)
    long (String.ofList (body.takeWhile (· ≠ '='))) value
  | ['-'] => plain
  | '-' :: letters => short letters
  | _ => plain

/-- What has been read so far. -/
structure Scan where
  /-- The values that were checked, in their order; an option without value has an empty one. -/
  given : List (Slot × String) := []
  /-- What was met last, with its value if that was met too. -/
  pending : Option (Slot × Option String) := none
  wordCount : Nat := 0
  /-- Whether only words can follow. -/
  onlyWords : Bool := false

namespace Scan

def value? (s : Scan) (slot : Slot) : Option String := s.given.lookup slot

def has (s : Scan) (slot : Slot) : Bool := (s.value? slot).isSome

/-- The values of a slot that may be repeated. -/
def values (s : Scan) (slot : Slot) : List String :=
  (s.given.filter (·.1 = slot)).map Prod.snd

/-- Whether the next argument is the value of an option. -/
def awaitsValue (s : Scan) : Bool :=
  match s.pending with
  | some (_, none) => true
  | _ => false

/-- Checks a value and keeps it. -/
def record (s : Scan) (slot : Slot) (value : String) : Except UsageError Scan := do
  if s.has slot && !slot.isRepeatable then throw .repeatedOption
  slot.check value
  return { s with given := s.given ++ [(slot, value)] }

/-- Records what is pending; an option without its value is refused. -/
def settle (s : Scan) : Except UsageError Scan :=
  match s.pending with
  | none => .ok s
  | some (_, none) => .error .refusedValue
  | some (slot, some value) => { s with pending := none }.record slot value

/-- An option that takes no value. -/
def raise (s : Scan) (o : Opt) : Except UsageError Scan := do
  let s ← s.settle
  match o with
  | .help => throw .helpRequested
  | .version => throw .versionRequested
  | o => s.record (.option o) ""

/-- An option that takes a value, which may be attached to it. -/
def expect (s : Scan) (o : Opt) (attached : Option String) : Except UsageError Scan := do
  let s ← s.settle
  match attached with
  | some value => s.record (.option o) value
  | none => return { s with pending := some (.option o, none) }

def longOption (options : List Opt) (s : Scan) (name : String) (attached : Option String) :
    Except UsageError Scan :=
  match options.find? (·.long = name) with
  | none => .error .unknownArgument
  | some o =>
    if o.takesValue then s.expect o attached
    else if attached.isSome then .error .unexpectedValue
    else s.raise o

/-- The value attached to a short option; an equals sign before it does not count. -/
def attachedValue : List Char → Option String
  | [] => none
  | '=' :: value => some (String.ofList value)
  | value => some (String.ofList value)

/-- Short options in one argument, up to the first that takes the rest as its value. -/
def shortOptions (options : List Opt) : Scan → List Char → Except UsageError Scan
  | s, [] => .ok s
  | s, c :: rest =>
    match options.find? (·.short? = some c) with
    | none => .error .unknownArgument
    | some o =>
      if o.takesValue then s.expect o (attachedValue rest)
      else do
        let s ← s.raise o
        shortOptions options s rest

/-- One of the words that a command takes. -/
def word (words : List Word) (s : Scan) (arg : String) : Except UsageError Scan :=
  match words[s.wordCount]? with
  | none => .error .unknownArgument
  | some w => do
    let s ← s.settle
    return { s with pending := some (.word w, some arg), wordCount := s.wordCount + 1 }

/-- Reads one argument. -/
def step (options : List Opt) (words : List Word) (s : Scan) (arg : String) :
    Except UsageError Scan :=
  if s.onlyWords then s.word words arg
  else
    match Shape.of arg with
    | .separator => .ok { s with onlyWords := true }
    | .long name attached => s.longOption options name attached
    | .short letters => s.shortOptions options letters
    | .plain =>
      match s.pending with
      | some (slot, none) => .ok { s with pending := some (slot, some arg) }
      | _ => s.word words arg

/-- Reads the arguments of a command. -/
def ofCommand (command : Command) (args : List String) : Except UsageError Scan := do
  let s ← args.foldlM (step Opt.ofCommand command.words) {}
  s.settle

/-- What a request for help on some words gives. -/
def helpOn : List String → UsageError
  | [] => .helpRequested
  | [name] =>
    if name = "help" || (Command.ofName? name).isSome then .helpRequested else .unknownCommand
  | _ => .unknownCommand

/-- Reads the arguments before the command, and finds the command with the rest. -/
def untilCommand : Scan → List String → Except UsageError (Scan × Option (Command × List String))
  | s, [] => .ok (s, none)
  | s, arg :: rest => do
    let isWord := s.onlyWords || Shape.of arg = .plain && !s.awaitsValue
    if isWord then
      if s.onlyWords then
        throw (if arg = "help" || (Command.ofName? arg).isSome then .unknownArgument
          else .unknownCommand)
      else if arg = "help" then throw (helpOn rest)
      else
        match Command.ofName? arg with
        | some command => return (s, some (command, rest))
        | none => throw .unknownCommand
    else
      let s ← s.step Opt.general [] arg
      untilCommand s rest

end Scan

end GraphPath.CommandLine
