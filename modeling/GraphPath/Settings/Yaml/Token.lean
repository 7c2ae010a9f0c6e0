import GraphPath.Settings.Yaml.Scalar

/-!
# YAML tokens

A text is cut into tokens. Outside of brackets the column of a token tells which blocks it ends and
whether it starts one; a mapping in a block starts with its first key, which is known for a key only
when its colon is met. A key is in one line and has at most 1024 bytes.
-/

namespace GraphPath.Yaml

/-- How a scalar is written. -/
inductive Style where
  | plain
  | quoted
  | literal
  | folded
deriving DecidableEq

inductive Token where
  | versionDirective (major minor : Nat)
  | tagDirective (handle stem : List Char)
  | documentStart
  | documentEnd
  | streamEnd
  | blockSequenceStart
  | blockMappingStart
  | blockEnd
  | flowSequenceStart
  | flowSequenceEnd
  | flowMappingStart
  | flowMappingEnd
  | blockEntry
  | flowEntry
  | key
  | value
  | anchor (name : List Char)
  | reference (name : List Char)
  | tag (handle rest : List Char)
  | scalar (style : Style) (text : List Char)
deriving DecidableEq

/-! ## Names, tags and directives -/

/-- A name after a mark, which a blank or another mark has to follow. -/
def anchorName? (c : Cursor) : Option (List Char × Cursor) :=
  let name := (c.advance 1).rest.takeWhile isNameChar
  let next := c.advance (1 + name.length)
  if !name.isEmpty && (endsWord next.head? || next.head?.any "?:,]\x7d%@\x60".toList.contains) then
    some (name, next)
  else none

/-- How many bytes a character takes, by the first of them. -/
def sequenceWidth? (octet : Nat) : Option Nat :=
  if octet < 0x80 then some 1
  else if octet < 0xc0 then none
  else if octet < 0xe0 then some 2
  else if octet < 0xf0 then some 3
  else if octet < 0xf8 then some 4
  else none

/-- The byte after a percent sign. -/
def octet? : List Char → Option Nat
  | '%' :: high :: low :: _ => numeralValue? 16 [high, low]
  | _ => none

/-- Bytes after percent signs that continue a character. -/
def continuation? : Nat → List Char → Option (List Char)
  | 0, _ => some []
  | n + 1, s => do
    let octet ← octet? s
    guard (0x80 ≤ octet && octet < 0xc0)
    let more ← continuation? n (s.drop 3)
    return Char.ofNat octet :: more

/-- A character that is written by its bytes after percent signs. -/
def percentEncoded? (s : List Char) : Option (List Char) := do
  let octet ← octet? s
  let width ← sequenceWidth? octet
  let more ← continuation? (width - 1) (s.drop 3)
  return Char.ofNat octet :: more

/-- A character of a tag; between angle brackets some more may stand. -/
def isTagChar (bracketed : Bool) (c : Char) : Bool :=
  isNameChar c || ";/?:@&=+$.%!~*'()".toList.contains c || bracketed && ",[]".toList.contains c

/-- The characters of a tag, at most `n`. -/
def tagCharsUpTo (bracketed : Bool) : Nat → Cursor → Option (List Char × Cursor)
  | 0, c => some ([], c)
  | n + 1, c =>
    match c.head? with
    | some char =>
      if !isTagChar bracketed char then some ([], c)
      else do
        let piece ← if char = '%' then percentEncoded? c.rest else some [char]
        let width := if char = '%' then 3 * piece.length else 1
        let (more, c) ← tagCharsUpTo bracketed n (c.advance width)
        return (piece ++ more, c)
    | none => some ([], c)

def tagChars? (bracketed : Bool) (c : Cursor) : Option (List Char × Cursor) :=
  tagCharsUpTo bracketed c.rest.length c

/-- What may be the handle of a tag: a name between exclamation marks, the second of which may be
missing. -/
def tagHandle (c : Cursor) : List Char × Cursor :=
  let name := (c.advance 1).rest.takeWhile isNameChar
  let next := c.advance (1 + name.length)
  if next.head? = some '!' then ('!' :: name ++ ['!'], next.advance 1) else ('!' :: name, next)

/-- A tag: an address between angle brackets, or a handle and what follows it. -/
def tag? (inFlow : Bool) (c : Cursor) : Option (Token × Cursor) := do
  let (token, c) ←
    if (c.rest.drop 1).head? = some '<' then do
      let (address, c) ← tagChars? true (c.advance 2)
      guard (!address.isEmpty && c.head? = some '>')
      pure (Token.tag [] address, c.advance 1)
    else do
      let (handle, next) := tagHandle c
      if 1 < handle.length && handle.getLast? = some '!' then
        let (rest, c) ← tagChars? false next
        guard !rest.isEmpty
        pure (Token.tag handle rest, c)
      else
        let (rest, c) ← tagChars? false next
        let rest := handle.drop 1 ++ rest
        pure (if rest.isEmpty then Token.tag [] ['!'] else Token.tag ['!'] rest, c)
  guard (endsWord c.head? || inFlow && c.head? = some ',')
  return (token, c)

/-- A number of a version. -/
def versionNumber? (c : Cursor) : Option (Nat × Cursor) := do
  let digits := c.rest.takeWhile isDigit
  guard (!digits.isEmpty && digits.length ≤ 9)
  return (digitsValue digits, c.advance digits.length)

/-- A directive: the version of the language, or what a handle of tags stands for. -/
def directive? (c : Cursor) : Option (Token × Cursor) := do
  let name := (c.advance 1).rest.takeWhile isNameChar
  let c := c.advance (1 + name.length)
  guard (endsWord c.head?)
  let c := c.skip isBlank
  let (token, c) ←
    if name = "YAML".toList then do
      let (major, c) ← versionNumber? c
      guard (c.head? = some '.')
      let (minor, c) ← versionNumber? (c.advance 1)
      pure (Token.versionDirective major minor, c)
    else if name = "TAG".toList then do
      guard (c.head? = some '!')
      let (handle, c) := tagHandle c
      guard ((handle = ['!'] || 1 < handle.length && handle.getLast? = some '!') &&
        c.head?.any isBlank)
      let (stem, c) ← tagChars? true (c.skip isBlank)
      guard (!stem.isEmpty && endsWord c.head?)
      pure (Token.tagDirective handle stem, c)
    else none
  return (token, ← c.endLine?)

/-! ## The scanner -/

/-- A token that may turn out to be a key: where it starts, and whether nothing else can stand
there. -/
structure KeyPlace where
  required : Bool
  /-- The number of tokens before it. -/
  number : Nat
  start : Cursor

structure Scanner where
  cursor : Cursor
  /-- The columns of the open blocks, the innermost first. -/
  blocks : List Nat := []
  /-- What may be a key, on the innermost level of brackets. -/
  key : Option KeyPlace := none
  /-- The same for the levels around it; there is one more level than open brackets. -/
  outerKeys : List (Option KeyPlace) := []
  /-- Whether a key may start here. -/
  keyAllowed : Bool := true
  /-- The tokens so far, the last one first. -/
  tokens : List Token := []

namespace Scanner

def inFlow (s : Scanner) : Bool := !s.outerKeys.isEmpty

def emit (s : Scanner) (token : Token) : Scanner := { s with tokens := token :: s.tokens }

def advance (s : Scanner) (count : Nat) : Scanner := { s with cursor := s.cursor.advance count }

/-- Passes over blanks, comments and line breaks, at most `n` lines. Where a key may start, a tab is
no blank. -/
def skipIdleUpTo : Nat → Scanner → Scanner
  | 0, s => s
  | n + 1, s =>
    let c := s.cursor
    let c := if c.column = 0 && c.head? = some '\ufeff' then c.advance 1 else c
    let c := c.skip fun char => char = ' ' || char = '\t' && (s.inFlow || !s.keyAllowed)
    let c := if c.head? = some '#' then c.skip fun char => !isBreak char else c
    match c.takeBreak? with
    | some (_, next) =>
      skipIdleUpTo n { s with cursor := next, keyAllowed := s.keyAllowed || !s.inFlow }
    | none => { s with cursor := c }

def skipIdle (s : Scanner) : Scanner := skipIdleUpTo (s.cursor.rest.length + 1) s

/-- Whether the text has gone on too far for a key. -/
def isStale (s : Scanner) (key : KeyPlace) : Bool :=
  key.start.line < s.cursor.line || key.start.index + 1024 < s.cursor.index

/-- Gives up the keys that have become too long; one that is required is an error. -/
def dropStale? (s : Scanner) : Option Scanner :=
  let stale (key : Option KeyPlace) : Bool := key.any s.isStale
  if (s.key :: s.outerKeys).any fun key => stale key && key.any (·.required) then none
  else
    let keep (key : Option KeyPlace) : Option KeyPlace := if stale key then none else key
    some { s with key := keep s.key, outerKeys := s.outerKeys.map keep }

/-- Gives up the key; one that is required is an error. -/
def dropKey? (s : Scanner) : Option Scanner :=
  if s.key.any (·.required) then none else some { s with key := none }

/-- Notes that a key may start here. -/
def noteKey? (s : Scanner) : Option Scanner :=
  if s.keyAllowed then do
    let required := !s.inFlow && s.blocks.head? = some s.cursor.column
    let s ← s.dropKey?
    return { s with key := some ⟨required, s.tokens.length, s.cursor⟩ }
  else some s

/-- Whether a block may be opened at a column. -/
def opensBlock (s : Scanner) (column : Nat) : Bool := !s.inFlow && s.blocks.head?.all (· < column)

/-- Opens a block at the current column, unless there is one. -/
def openBlock (s : Scanner) (token : Token) : Scanner :=
  if s.opensBlock s.cursor.column then
    { s.emit token with blocks := s.cursor.column :: s.blocks }
  else s

/-- Ends the blocks that are further to the right than a column. -/
def closeBlocks (s : Scanner) (column : Nat) : Scanner :=
  if s.inFlow then s
  else
    let closed := s.blocks.takeWhile (column < ·)
    { s with
      blocks := s.blocks.drop closed.length
      tokens := List.replicate closed.length .blockEnd ++ s.tokens }

/-- Ends all blocks. -/
def closeAll (s : Scanner) : Scanner :=
  if s.inFlow then s
  else
    { s with blocks := [], tokens := List.replicate s.blocks.length .blockEnd ++ s.tokens }

/-- Ends the blocks before a directive, a document or the end of the text. -/
def leaveBlocks? (s : Scanner) : Option Scanner := do
  let s ← s.closeAll.dropKey?
  return { s with keyAllowed := false }

/-- An entry of a block or of brackets, of which the mark is passed over. -/
def entry? (s : Scanner) (token start : Token) (keyAllowed : Bool) : Option Scanner := do
  guard (s.inFlow || s.keyAllowed)
  let s ← (s.openBlock start).dropKey?
  return { (s.advance 1).emit token with keyAllowed }

/-- The colon between a key and its value. The key gets its token where it starts, and opens a
mapping there if it is the first one. -/
def value? (s : Scanner) : Option Scanner :=
  match s.key with
  | some key =>
    let opens := s.opensBlock key.start.column
    let place := s.tokens.length - key.number
    let marks := if opens then [.key, .blockMappingStart] else [.key]
    let tokens := s.tokens.take place ++ marks ++ s.tokens.drop place
    let blocks := if opens then key.start.column :: s.blocks else s.blocks
    some { (s.advance 1) with
      tokens := .value :: tokens, blocks, key := none, keyAllowed := false }
  | none => do
    guard (s.inFlow || s.keyAllowed)
    let s := s.openBlock .blockMappingStart
    return { (s.advance 1).emit .value with keyAllowed := !s.inFlow }

/-- An opening bracket. -/
def openFlow? (s : Scanner) (token : Token) : Option Scanner := do
  let s ← s.noteKey?
  return { (s.advance 1).emit token with
    key := none, outerKeys := s.key :: s.outerKeys, keyAllowed := true }

/-- A closing bracket; one that nothing opened is left to the grammar. -/
def closeFlow? (s : Scanner) (token : Token) : Option Scanner := do
  let s ← s.dropKey?
  let (key, outerKeys) := match s.outerKeys with
    | key :: outer => (key, outer)
    | [] => (s.key, [])
  return { (s.advance 1).emit token with key, outerKeys, keyAllowed := false }

/-- A token that a key may start with, given how it is read. -/
def word? (s : Scanner) (read : Cursor → Option (Token × Cursor)) : Option Scanner := do
  let s ← s.noteKey?
  let (token, cursor) ← read s.cursor
  return { s.emit token with cursor, keyAllowed := false }

/-- A text without quotes. After a line break a key may start again. -/
def plainWord? (s : Scanner) : Option Scanner := do
  let s ← s.noteKey?
  let found ← plain? s.inFlow ((s.blocks.head?.map (· + 1)).getD 0) s.cursor
  return { s.emit (.scalar .plain found.text) with
    cursor := found.next, keyAllowed := found.broken }

def quotedWord? (s : Scanner) (quote : Char) : Option Scanner :=
  s.word? fun c => (quoted? quote c).map fun (text, next) => (.scalar .quoted text, next)

def blockWord? (s : Scanner) (style : Style) : Option Scanner := do
  let s ← s.dropKey?
  let (text, cursor) ← block? (style = .folded) s.blocks.head? s.cursor
  return { s.emit (.scalar style text) with cursor, keyAllowed := true }

/-- Whether a text without quotes can start with a character before the given one. -/
def startsPlain (inFlow : Bool) (char : Char) (next : Option Char) : Bool :=
  if char = '-' then !next.any isBlank
  else if char = '?' || char = ':' then !inFlow && !endsWord next
  else !isSpace char && !isFlowMark char && !"#&*!|>'\"%@\x60".toList.contains char

/-- The token at a character. -/
def token? (s : Scanner) (char : Char) : Option Scanner :=
  let next := (s.cursor.rest.drop 1).head?
  if s.cursor.column = 0 && char = '%' then do
    let s ← s.leaveBlocks?
    let (token, cursor) ← directive? s.cursor
    return { s.emit token with cursor }
  else if s.cursor.atMarker '-' then do return ((← s.leaveBlocks?).advance 3).emit .documentStart
  else if s.cursor.atMarker '.' then do return ((← s.leaveBlocks?).advance 3).emit .documentEnd
  else if char = '[' then s.openFlow? .flowSequenceStart
  else if char = '\x7b' then s.openFlow? .flowMappingStart
  else if char = ']' then s.closeFlow? .flowSequenceEnd
  else if char = '\x7d' then s.closeFlow? .flowMappingEnd
  else if char = ',' then do
    return { ((← s.dropKey?).advance 1).emit .flowEntry with keyAllowed := true }
  else if char = '-' && endsWord next then s.entry? .blockEntry .blockSequenceStart true
  else if char = '?' && (s.inFlow || endsWord next) then
    s.entry? .key .blockMappingStart !s.inFlow
  else if char = ':' && (s.inFlow || endsWord next) then s.value?
  else if char = '*' then
    s.word? fun c => (anchorName? c).map fun (name, next) => (.reference name, next)
  else if char = '&' then
    s.word? fun c => (anchorName? c).map fun (name, next) => (.anchor name, next)
  else if char = '!' then s.word? (tag? s.inFlow)
  else if char = '|' && !s.inFlow then s.blockWord? .literal
  else if char = '>' && !s.inFlow then s.blockWord? .folded
  else if char = '\'' || char = '"' then s.quotedWord? char
  else if startsPlain s.inFlow char next then s.plainWord?
  else none

/-- The next token, with the ends of blocks before it. -/
def step? (s : Scanner) : Option Scanner := do
  let s ← s.skipIdle.dropStale?
  let s := s.closeBlocks s.cursor.column
  match s.cursor.head? with
  | some char => s.token? char
  | none => return (← s.leaveBlocks?).emit .streamEnd

/-- All tokens, in at most `n` steps. -/
def runUpTo : Nat → Scanner → Option (List Token)
  | 0, _ => none
  | n + 1, s => do
    let s ← s.step?
    if s.tokens.head? = some .streamEnd then return s.tokens.reverse else runUpTo n s

end Scanner

/-- The tokens of a text. Each of them takes a character, except for the ends of blocks and of the
text. -/
def tokens? (text : List Char) : Option (List Token) :=
  if text.all isPermitted then
    Scanner.runUpTo (text.length + 1) { cursor := { rest := text } }
  else none

end GraphPath.Yaml
