import GraphPath.Number.Numeral
import GraphPath.Settings.Yaml.Cursor

/-!
# YAML scalars

Texts without quotes, between quotes, and in blocks of lines. Where a text without quotes or
between quotes goes over several lines, one line break is a space and further ones stay.
-/

namespace GraphPath.Yaml

/-- What stands between two words of a text. -/
inductive Gap where
  /-- Blanks in one line. -/
  | blanks (s : List Char)
  /-- Line breaks, at least one, with the blanks around them left out. -/
  | breaks (s : List Char)
  /-- What follows a line break that is escaped: further line breaks. -/
  | joint (s : List Char)

namespace Gap

def addBlank (c : Char) : Gap → Gap
  | blanks s => blanks (s ++ [c])
  | gap => gap

def addBreak (c : Char) : Gap → Gap
  | blanks _ => breaks [c]
  | breaks s => breaks (s ++ [c])
  | joint s => joint (s ++ [c])

def isBroken : Gap → Bool
  | blanks _ => false
  | _ => true

/-- The characters that a gap stands for. -/
def text : Gap → List Char
  | blanks s => s
  | breaks ['\n'] => [' ']
  | breaks ('\n' :: more) => more
  | breaks s => s
  | joint s => s

end Gap

/-- Goes on with a gap, for at most `n` characters. After a line break no tab may stand before the
given column. -/
def gapUpTo (floor : Nat) : Nat → Gap → Cursor → Option (Gap × Cursor)
  | 0, gap, c => some (gap, c)
  | n + 1, gap, c =>
    match c.takeBreak? with
    | some (char, next) => gapUpTo floor n (gap.addBreak char) next
    | none =>
      match c.head? with
      | some char =>
        if isBlank char then
          if char = '\t' && gap.isBroken && c.column < floor then none
          else gapUpTo floor n (gap.addBlank char) (c.advance 1)
        else some (gap, c)
      | none => some (gap, c)

/-- The gap at a place; it starts as the given one. -/
def takeGap? (floor : Nat) (gap : Gap) (c : Cursor) : Option (Gap × Cursor) :=
  gapUpTo floor c.rest.length gap c

/-! ## Texts without quotes -/

def isFlowMark (c : Char) : Bool := c = ',' || c = '[' || c = ']' || c = '\x7b' || c = '\x7d'

/-- The word at the front of a text. It ends before a colon that a blank follows, and within
brackets before a mark of theirs. Within brackets a colon is refused before such a mark. -/
def plainWord? (inFlow : Bool) : List Char → Option (List Char)
  | [] => some []
  | c :: rest =>
    if isSpace c then some []
    else if inFlow && c = ':' && rest.head?.any (fun d => isFlowMark d || d = '?') then none
    else if c = ':' && endsWord rest.head? || inFlow && isFlowMark c then some []
    else (plainWord? inFlow rest).map (c :: ·)

/-- A text without quotes. -/
structure Plain where
  text : List Char
  /-- Whether a line break follows it that was passed over. -/
  broken : Bool
  next : Cursor

/-- The rest of a text without quotes after a gap, in at most `n` words. -/
def plainUpTo (inFlow : Bool) (floor : Nat) : Nat → Gap → Cursor → Option Plain
  | 0, gap, c => some ⟨[], gap.isBroken, c⟩
  | n + 1, gap, c =>
    if c.atBoundary || c.head? = some '#' then some ⟨[], gap.isBroken, c⟩
    else do
      let word ← plainWord? inFlow c.rest
      if word.isEmpty then some ⟨[], gap.isBroken, c⟩
      else
        let text := gap.text ++ word
        let c := c.advance word.length
        let (gap, c) ← takeGap? floor (.blanks []) c
        if c.head?.isNone || !inFlow && c.column < floor then some ⟨text, gap.isBroken, c⟩
        else
          let more ← plainUpTo inFlow floor n gap c
          return { more with text := text ++ more.text }

/-- A text without quotes; outside of brackets its lines start at the given column or later. -/
def plain? (inFlow : Bool) (floor : Nat) (c : Cursor) : Option Plain :=
  plainUpTo inFlow floor (c.rest.length + 1) (.blanks []) c

/-! ## Texts between quotes -/

/-- The characters that one letter after a backslash stands for. -/
def escapes : List (Char × Char) :=
  [('"', '"'), ('\\', '\\'), ('/', '/'), (' ', ' '), ('\t', '\t'), ('0', '\x00'), ('a', '\x07'),
   ('b', '\x08'), ('t', '\t'), ('n', '\n'), ('v', '\x0b'), ('f', '\x0c'), ('r', '\r'),
   ('e', '\x1b'), ('N', '\u0085'), ('_', '\u00a0'), ('L', '\u2028'), ('P', '\u2029')]

/-- How many digits follow a letter that announces the number of a character. -/
def numberEscapes : List (Char × Nat) := [('x', 2), ('u', 4), ('U', 8)]

/-- What follows a backslash: the character it stands for and the width. -/
def escape? : List Char → Option (Char × Nat)
  | [] => none
  | letter :: rest =>
    match escapes.lookup letter with
    | some c => some (c, 1)
    | none => do
      let count ← numberEscapes.lookup letter
      let digits := rest.take count
      guard (digits.length = count)
      let n ← numeralValue? 16 digits
      guard n.isValidChar
      return (Char.ofNat n, 1 + count)

/-- Part of a text between quotes. -/
structure Quoted where
  text : List Char
  /-- Whether an escaped line break ends it. -/
  joined : Bool
  next : Cursor

/-- The characters up to a blank, a line break or the quote, at most `n`. Between single quotes a
quote is written twice, and a backslash is nothing special. -/
def quotedRun? (quote : Char) : Nat → Cursor → Option Quoted
  | 0, c => some ⟨[], false, c⟩
  | n + 1, c =>
    let push (char : Char) (width : Nat) : Option Quoted := do
      let more ← quotedRun? quote n (c.advance width)
      return { more with text := char :: more.text }
    match c.rest with
    | [] => some ⟨[], false, c⟩
    | char :: rest =>
      if isSpace char then some ⟨[], false, c⟩
      else if char = quote then
        if quote = '\'' && rest.head? = some quote then push quote 2 else some ⟨[], false, c⟩
      else if quote = '"' && char = '\\' then
        match (c.advance 1).takeBreak? with
        | some (_, next) => some ⟨[], true, next⟩
        | none => do
          let (char, width) ← escape? rest
          push char (1 + width)
      else push char 1

/-- The text up to the closing quote and the place after it, in at most `n` parts. -/
def quotedUpTo (quote : Char) : Nat → Cursor → Option (List Char × Cursor)
  | 0, _ => none
  | n + 1, c =>
    if c.atBoundary || c.atEnd then none
    else do
      let run ← quotedRun? quote c.rest.length c
      if run.next.head? = some quote then return (run.text, run.next.advance 1)
      else
        let (gap, c) ← takeGap? 0 (if run.joined then .joint [] else .blanks []) run.next
        let (more, c) ← quotedUpTo quote n c
        return (run.text ++ gap.text ++ more, c)

/-- A text between quotes, from the opening one. -/
def quoted? (quote : Char) (c : Cursor) : Option (List Char × Cursor) :=
  quotedUpTo quote (c.rest.length + 1) (c.advance 1)

/-! ## Blocks of lines -/

/-- What is kept of the line breaks at the end of a block. -/
inductive Chomp where
  | strip
  | clip
  | keep

def Chomp.ofChar? : Option Char → Option Chomp
  | some '-' => some .strip
  | some '+' => some .keep
  | _ => none

/-- How a block is written: what is kept of its end, and how much it is indented, if told. -/
structure BlockHeader where
  chomp : Chomp
  indent : Option Nat

/-- The digit that tells how much a block is indented. -/
def indentDigit? (char : Option Char) : Option Nat :=
  (char.bind (digitValue? 10)).filter (0 < ·)

/-- The marks after the one that opens a block, in either order, and the place after them. -/
def blockHeader (c : Cursor) : BlockHeader × Cursor :=
  match Chomp.ofChar? c.head? with
  | some chomp =>
    let c := c.advance 1
    match indentDigit? c.head? with
    | some indent => (⟨chomp, some indent⟩, c.advance 1)
    | none => (⟨chomp, none⟩, c)
  | none =>
    match indentDigit? c.head? with
    | some indent =>
      let c := c.advance 1
      match Chomp.ofChar? c.head? with
      | some chomp => (⟨chomp, some indent⟩, c.advance 1)
      | none => (⟨.clip, some indent⟩, c)
    | none => (⟨.clip, none⟩, c)

/-- Empty lines of a block. -/
structure BlockGap where
  breaks : List Char
  /-- The largest column reached. -/
  width : Nat
  next : Cursor

/-- The empty lines at a place and the indentation of the line after them, at most `n` lines. No
tab may stand in the indentation. -/
def blockGapUpTo (indent : Option Nat) : Nat → Cursor → Option BlockGap
  | 0, c => some ⟨[], c.column, c⟩
  | n + 1, c =>
    let spaces := (c.rest.takeWhile (· = ' ')).length
    let c := c.advance (match indent with
      | some indent => min spaces (indent - c.column)
      | none => spaces)
    if indent.all (c.column < ·) && c.head? = some '\t' then none
    else
      match c.takeBreak? with
      | some (char, next) => do
        let more ← blockGapUpTo indent n next
        return ⟨char :: more.breaks, max c.column more.width, more.next⟩
      | none => some ⟨[], c.column, c⟩

def blockGap? (indent : Option Nat) (c : Cursor) : Option BlockGap :=
  blockGapUpTo indent (c.rest.length + 1) c

/-- The lines of a block so far. -/
structure BlockLines where
  text : List Char := []
  /-- The line break after the last line. -/
  lastBreak : List Char := []
  /-- The empty lines after it. -/
  gap : List Char
  /-- Whether the last line starts with a blank. -/
  blankStart : Bool := false
  next : Cursor

/-- Adds lines of a block, at most `n`. In a folded block a single line break between two lines that
do not start with blanks is a space. -/
def blockLinesUpTo (folded : Bool) (indent : Nat) : Nat → BlockLines → Option BlockLines
  | 0, lines => some lines
  | n + 1, lines =>
    let c := lines.next
    if c.column = indent && !c.atEnd then do
      let blankStart := c.head?.any isBlank
      let between :=
        if folded && lines.lastBreak = ['\n'] && !lines.blankStart && !blankStart then
          if lines.gap.isEmpty then [' '] else lines.gap
        else lines.lastBreak ++ lines.gap
      let line := c.rest.takeWhile fun char => !isBreak char
      let c := c.advance line.length
      let (lastBreak, c) := match c.takeBreak? with
        | some (char, next) => ([char], next)
        | none => ([], c)
      let gap ← blockGap? (some indent) c
      blockLinesUpTo folded indent n
        ⟨lines.text ++ between ++ line, lastBreak, gap.breaks, blankStart, gap.next⟩
    else some lines

/-- A block of lines from the mark that opens it, inside a block at the given column. -/
def block? (folded : Bool) (outer : Option Nat) (c : Cursor) : Option (List Char × Cursor) := do
  let (header, c) := blockHeader (c.advance 1)
  let c ← c.endLine?
  let told := header.indent.map (outer.getD 0 + ·)
  let gap ← blockGap? told c
  let least := (outer.map (· + 1)).getD 0
  let indent := told.getD (max (max gap.width least) 1)
  let lines ← blockLinesUpTo folded indent (c.rest.length + 1)
    { gap := gap.breaks, next := gap.next }
  let tail := match header.chomp with
    | .strip => []
    | .clip => lines.lastBreak
    | .keep => lines.lastBreak ++ lines.gap
  return (lines.text ++ tail, lines.next)

end GraphPath.Yaml
