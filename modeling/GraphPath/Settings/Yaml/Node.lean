import GraphPath.Settings.Yaml.Token

/-!
# YAML nodes

The tokens of a text make one document, a tree of scalars, sequences and mappings. A node may carry
an anchor, and a reference to the anchor stands for the node.
-/

namespace GraphPath.Yaml

/-- A node. Anchors are numbered: an anchor gets the number of names that are known before it, and a
reference has the number that its name got last. -/
inductive Node where
  | scalar (style : Style) (tag text : List Char)
  | sequence (items : List Node)
  | mapping (entries : List (Node × Node))
  | reference (number : Nat)
  | anchored (number : Nat) (node : Node)

namespace Node

/-- A node that is not written. -/
def absent : Node := .scalar .plain [] []

mutual

/-- The anchors in a node, in their order. -/
def anchors : Node → List (Nat × Node)
  | .scalar _ _ _ => []
  | .sequence items => anchorsInAll items
  | .mapping entries => anchorsInEntries entries
  | .reference _ => []
  | .anchored number node => (number, node) :: anchors node

def anchorsInAll : List Node → List (Nat × Node)
  | [] => []
  | node :: rest => anchors node ++ anchorsInAll rest

def anchorsInEntries : List (Node × Node) → List (Nat × Node)
  | [] => []
  | (key, value) :: rest => anchors key ++ anchors value ++ anchorsInEntries rest

end

end Node

/-! ## Reading nodes from tokens -/

/-- The tokens that are left, with the names of the anchors so far and their numbers. -/
structure Reader where
  tokens : List Token
  anchors : List (List Char × Nat) := []

namespace Reader

def head? (r : Reader) : Option Token := r.tokens.head?

def drop (r : Reader) (count : Nat) : Reader := { r with tokens := r.tokens.drop count }

/-- Whether one of some tokens comes next. -/
def isAt (r : Reader) (tokens : List Token) : Bool := r.head?.any tokens.contains

/-- Numbers an anchor. -/
def anchor (r : Reader) (name : List Char) : Nat × Reader :=
  (r.anchors.length,
    { r with anchors := (name, r.anchors.length) :: r.anchors.filter (·.1 ≠ name) })

end Reader

/-- What stands before a node: its anchor and its tag, in any order. -/
structure Properties where
  anchor : Option (List Char) := none
  tag : Option (List Char × List Char) := none

/-- The properties at the front of some tokens, and their number. -/
def Properties.read : List Token → Properties × Nat
  | .anchor name :: .tag handle rest :: _ => (⟨some name, some (handle, rest)⟩, 2)
  | .tag handle rest :: .anchor name :: _ => (⟨some name, some (handle, rest)⟩, 2)
  | .anchor name :: _ => (⟨some name, none⟩, 1)
  | .tag handle rest :: _ => (⟨none, some (handle, rest)⟩, 1)
  | _ => ({}, 0)

/-- What the handles of tags stand for. -/
abbrev Handles : Type := List (List Char × List Char)

/-- The handles that need no directive. -/
def Handles.known : Handles := [(['!'], ['!']), (['!', '!'], "tag:yaml.org,2002:".toList)]

/-- A tag in full; one without a handle is full already. -/
def Handles.tag? (handles : Handles) : List Char × List Char → Option (List Char)
  | ([], rest) => some rest
  | (handle, rest) => (handles.lookup handle).map (· ++ rest)

mutual

/-- A node. In a mapping of a block the entries of a sequence need no deeper indentation, as
`entriesHere` says. The first argument bounds the number of steps. -/
def nodeUpTo : Nat → Handles → Bool → Reader → Option (Node × Reader)
  | 0, _, _, _ => none
  | n + 1, handles, entriesHere, r =>
    match r.head? with
    | some (.reference name) => do
      let number ← r.anchors.lookup name
      return (.reference number, r.drop 1)
    | _ => do
      let (properties, count) := Properties.read r.tokens
      let tag ← match properties.tag with
        | some tag => handles.tag? tag
        | none => some []
      let r := r.drop count
      match properties.anchor with
      | some name =>
        let (number, r) := r.anchor name
        let (node, r) ← contentUpTo n handles entriesHere tag true r
        return (.anchored number node, r)
      | none => contentUpTo n handles entriesHere tag (0 < count) r

/-- A node after its properties; with them it may be absent. -/
def contentUpTo : Nat → Handles → Bool → List Char → Bool → Reader → Option (Node × Reader)
  | 0, _, _, _, _, _ => none
  | n + 1, handles, entriesHere, tag, mayBeAbsent, r =>
    match r.head? with
    | some (.scalar style text) => some (.scalar style tag text, r.drop 1)
    | some .flowSequenceStart => do
      let (items, r) ← flowItemsUpTo n handles true (r.drop 1)
      return (.sequence items, r)
    | some .flowMappingStart => do
      let (entries, r) ← flowEntriesUpTo n handles true (r.drop 1)
      return (.mapping entries, r)
    | some .blockSequenceStart => do
      let (items, r) ← blockItemsUpTo n handles [.blockEntry, .blockEnd] (r.drop 1)
      guard (r.isAt [.blockEnd])
      return (.sequence items, r.drop 1)
    | some .blockMappingStart => do
      let (entries, r) ← blockEntriesUpTo n handles (r.drop 1)
      return (.mapping entries, r)
    | next =>
      if entriesHere && next = some .blockEntry then do
        let (items, r) ← blockItemsUpTo n handles [.blockEntry, .key, .value, .blockEnd] r
        return (.sequence items, r)
      else if mayBeAbsent then some (.scalar .plain tag [], r)
      else none

/-- A node that is absent before some tokens. -/
def nodeBeforeUpTo : Nat → Handles → Bool → List Token → Reader → Option (Node × Reader)
  | 0, _, _, _, _ => none
  | n + 1, handles, entriesHere, ends, r =>
    if r.isAt ends then some (Node.absent, r) else nodeUpTo n handles entriesHere r

/-- The node after a colon, which is absent before some tokens and without the colon. -/
def valueUpTo : Nat → Handles → Bool → List Token → Reader → Option (Node × Reader)
  | 0, _, _, _, _ => none
  | n + 1, handles, entriesHere, ends, r =>
    if r.isAt [.value] then nodeBeforeUpTo n handles entriesHere ends (r.drop 1)
    else some (Node.absent, r)

/-- The items of a sequence in a block. -/
def blockItemsUpTo : Nat → Handles → List Token → Reader → Option (List Node × Reader)
  | 0, _, _, _ => none
  | n + 1, handles, ends, r =>
    if r.isAt [.blockEntry] then do
      let (item, r) ← nodeBeforeUpTo n handles false ends (r.drop 1)
      let (items, r) ← blockItemsUpTo n handles ends r
      return (item :: items, r)
    else some ([], r)

/-- The entries of a mapping in a block, and its end. -/
def blockEntriesUpTo : Nat → Handles → Reader → Option (List (Node × Node) × Reader)
  | 0, _, _ => none
  | n + 1, handles, r =>
    if r.isAt [.key] then do
      let ends := [.key, .value, .blockEnd]
      let (key, r) ← nodeBeforeUpTo n handles true ends (r.drop 1)
      let (value, r) ← valueUpTo n handles true ends r
      let (entries, r) ← blockEntriesUpTo n handles r
      return ((key, value) :: entries, r)
    else if r.isAt [.blockEnd] then some ([], r.drop 1)
    else none

/-- The items of a sequence in brackets, and the closing one. There are commas between them, and
perhaps one at the end. A key is an item by itself, a mapping of one entry. -/
def flowItemsUpTo : Nat → Handles → Bool → Reader → Option (List Node × Reader)
  | 0, _, _, _ => none
  | n + 1, handles, first, r =>
    if r.isAt [.flowSequenceEnd] then some ([], r.drop 1)
    else do
      guard (first || r.isAt [.flowEntry])
      let r := if first then r else r.drop 1
      if r.isAt [.flowSequenceEnd] then some ([], r.drop 1)
      else do
        let (item, r) ←
          if r.isAt [.key] then do
            let (entry, r) ← pairUpTo n handles (r.drop 1)
            pure (.mapping [entry], r)
          else nodeUpTo n handles false r
        let (items, r) ← flowItemsUpTo n handles false r
        return (item :: items, r)

/-- An entry as an item of a sequence, after the token of its key. Where the key is absent, the next
token goes with it. -/
def pairUpTo : Nat → Handles → Reader → Option ((Node × Node) × Reader)
  | 0, _, _ => none
  | n + 1, handles, r => do
    let (key, r) ←
      if r.isAt [.value, .flowEntry, .flowSequenceEnd] then some (Node.absent, r.drop 1)
      else nodeUpTo n handles false r
    let (value, r) ← valueUpTo n handles false [.flowEntry, .flowSequenceEnd] r
    return ((key, value), r)

/-- The entries of a mapping in brackets, and the closing one, with commas as in a sequence. A key
may stand without a colon. -/
def flowEntriesUpTo : Nat → Handles → Bool → Reader → Option (List (Node × Node) × Reader)
  | 0, _, _, _ => none
  | n + 1, handles, first, r =>
    if r.isAt [.flowMappingEnd] then some ([], r.drop 1)
    else do
      guard (first || r.isAt [.flowEntry])
      let r := if first then r else r.drop 1
      if r.isAt [.flowMappingEnd] then some ([], r.drop 1)
      else do
        let ends := [.flowEntry, .flowMappingEnd]
        let (key, value, r) ←
          if r.isAt [.key] then do
            let (key, r) ← nodeBeforeUpTo n handles false (.value :: ends) (r.drop 1)
            let (value, r) ← valueUpTo n handles false ends r
            pure (key, value, r)
          else do
            let (key, r) ← nodeUpTo n handles false r
            pure (key, Node.absent, r)
        let (entries, r) ← flowEntriesUpTo n handles false r
        return ((key, value) :: entries, r)

end

/-! ## Documents -/

/-- What the directives at the front of some tokens say about tags, and the tokens after them. At
most one of them gives a version, and each handle has at most one. -/
def directives? (versioned : Bool) (handles : Handles) : List Token → Option (Handles × List Token)
  | .versionDirective major minor :: rest =>
    if !versioned && major = 1 && (minor = 1 || minor = 2) then directives? true handles rest
    else none
  | .tagDirective handle stem :: rest =>
    if (handles.lookup handle).isSome then none
    else directives? versioned ((handle, stem) :: handles) rest
  | rest => some (handles, rest)

def Token.isDirective : Token → Bool
  | .versionDirective _ _ => true
  | .tagDirective _ _ => true
  | _ => false

/-- The node of the only document of some tokens. -/
def rootOf? (tokens : List Token) : Option Node := do
  let (handles, r, isStarted) ←
    if tokens.head?.any fun t => t.isDirective || t = .documentStart then do
      let (handles, rest) ← directives? false [] tokens
      guard (rest.head? = some .documentStart)
      pure (handles, Reader.mk (rest.drop 1) [], true)
    else some ([], Reader.mk tokens [], false)
  let isEmpty := r.isAt [.streamEnd] ||
    isStarted && (r.isAt [.documentStart, .documentEnd] || r.head?.any (·.isDirective))
  let (node, r) ←
    if isEmpty then some (Node.absent, r)
    else nodeUpTo (4 * tokens.length) (handles ++ Handles.known) false r
  guard (r.tokens.dropWhile (· = .documentEnd) = [.streamEnd])
  return node

/-- The root of the document in a text. -/
def root? (text : List Char) : Option Node := (tokens? text).bind rootOf?

end GraphPath.Yaml
