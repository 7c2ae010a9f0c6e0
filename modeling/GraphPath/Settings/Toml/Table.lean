import GraphPath.Settings.Toml.Scalar

/-!
# TOML tables

Tables are opened by headers, by the points of names and in brackets, and nothing is defined twice:
a table may be opened again only if it came up on the way to another one, and the points of a name
lead only into tables that no header has opened.
-/

namespace GraphPath.Toml

/-- How a table came about. -/
inductive Origin where
  /-- It stands on the way of a header. -/
  | implied
  /-- It stands before a point of a name. -/
  | dotted
  /-- A header has opened it. -/
  | opened
  /-- It is written in brackets. -/
  | inline
deriving DecidableEq

inductive Value where
  | scalar (d : Document)
  | array (items : List Value)
  | table (origin : Origin) (entries : List (String × Value))
  /-- The tables that headers in double brackets have opened. -/
  | tables (elements : List (List (String × Value)))

abbrev Entries : Type := List (String × Value)

/-- Sets an entry by what was there. -/
def Entries.alter? (name : String) (f : Option Value → Option Value) : Entries → Option Entries
  | [] => (f none).map fun value => [(name, value)]
  | (name', value) :: rest =>
    if name' = name then (f (some value)).map fun value => (name, value) :: rest
    else (alter? name f rest).map ((name', value) :: ·)

/-- Adds an entry, which must not be there. -/
def Entries.add? (name : String) (value : Value) (entries : Entries) : Option Entries :=
  entries.alter? name fun present? => if present?.isSome then none else some value

/-- Whether a path may lead into a table. -/
def Origin.admits (ofName : Bool) : Origin → Bool
  | .implied => true
  | .dotted => true
  | .opened => !ofName
  | .inline => false

/-- Changes the table that a path leads to, given its origin. Tables that are missing on the way
come about; of several tables under one name the path leads into the last one. `ofName` tells the
path of a name from the path of a header. -/
def within? (ofName : Bool) (f : Origin → Entries → Option Entries) :
    Path → Origin → Entries → Option Entries
  | [], origin, entries => f origin entries
  | name :: path, _, entries =>
    entries.alter? name fun
      | none =>
        let origin := if ofName then .dotted else .implied
        (within? ofName f path origin []).map (.table origin ·)
      | some (.table origin inner) =>
        if origin.admits ofName then (within? ofName f path origin inner).map (.table origin ·)
        else none
      | some (.tables elements) => do
        let last ← elements.getLast?
        let last ← within? ofName f path .opened last
        return .tables (elements.dropLast ++ [last])
      | some _ => none

/-- Assigns a value to a name. The points of the name have to end in a table that points have
opened. -/
def assign? (path : Path) (name : String) (value : Value) (entries : Entries) : Option Entries :=
  within? true (fun origin entries =>
    if path.isEmpty || origin = .dotted then Entries.add? name value entries else none)
    path .opened entries

/-- A line of a document. -/
inductive Line where
  | header (path : Path) (name : String)
  /-- A header that opens another table of its name. -/
  | element (path : Path) (name : String)
  | assignment (path : Path) (name : String) (value : Value)

/-- Opens a table; one that is implied keeps its entries. -/
def openTable? (path : Path) (name : String) (root : Entries) : Option Entries :=
  within? false (fun _ entries => Entries.alter? name (fun
    | none => some (.table .opened [])
    | some (.table .implied inner) => some (.table .opened inner)
    | some _ => none) entries) path .opened root

/-- Opens another table of a name. -/
def openElement? (path : Path) (name : String) (root : Entries) : Option Entries :=
  within? false (fun _ entries => Entries.alter? name (fun
    | none => some (.tables [[]])
    | some (.tables elements) => some (.tables (elements ++ [[]]))
    | some _ => none) entries) path .opened root

/-- The table of lines, which starts as `root`; `current` leads to the one that is open. -/
def assemble? (current : Path) (root : Entries) : List Line → Option Entries
  | [] => some root
  | .header path name :: rest => do assemble? (path ++ [name]) (← openTable? path name root) rest
  | .element path name :: rest => do assemble? (path ++ [name]) (← openElement? path name root) rest
  | .assignment path name value :: rest => do
    let root ← within? false (fun _ => assign? path name value) current .opened root
    assemble? current root rest

/-- The table of assignments in brackets. -/
def inlineTable? (assignments : List (Path × String × Value)) : Option Value := do
  let entries ← assignments.foldlM (fun entries (path, name, value) =>
    assign? path name value entries) []
  return .table .inline entries

/-- A value as a document; what is nested deeper than settings are has no meaning. -/
def Value.document : Nat → Value → Document
  | _, .scalar d => d
  | 0, _ => .other
  | depth + 1, .array items => .list true (items.map (document depth))
  | depth + 1, .table _ entries =>
    .map (entries.map fun (name, value) => (name, document depth value))
  | depth + 1, .tables elements =>
    .list true (elements.map fun entries => document depth (.table .opened entries))

end GraphPath.Toml
