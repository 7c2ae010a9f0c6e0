import GraphPath.Text.CaseData

/-!
# Small and capital letters

The full case mappings of texts. A letter may become several characters, and a capital sigma takes
its final form at the end of a word.
-/

namespace GraphPath.Text

/-- The image of a code point under increasing runs; the search ends at the first run that starts
beyond it. -/
def caseImage : List CaseRun → Nat → Option Nat
  | [], _ => none
  | run :: rest, n =>
    if n < run.first then none
    else if n ≤ run.last && (n - run.first) % run.stride = 0 then some ((n : Int) + run.shift).toNat
    else caseImage rest n

/-- One character in the other case, by the mappings to several characters first. -/
def mapCase (sequences : List (Nat × List Nat)) (runs : List CaseRun) (c : Char) : List Char :=
  match sequences.lookup c.toNat with
  | some image => image.map Char.ofNat
  | none =>
    match caseImage runs c.toNat with
    | some n => [Char.ofNat n]
    | none => [c]

def isCased (c : Char) : Bool := inSpans casedSpans c.toNat

def isCaseIgnorable (c : Char) : Bool := inSpans caseIgnorableSpans c.toNat

/-- Whether a cased letter comes first once the case-ignorable characters are passed over. -/
def meetsCased (s : List Char) : Bool :=
  match s.dropWhile isCaseIgnorable with
  | [] => false
  | c :: _ => isCased c

/-- Small letters for the rest of a text; `before` is what precedes it, nearest first. A capital
sigma that ends a word becomes the final small sigma. -/
def toLowerAfter (before : List Char) : List Char → List Char
  | [] => []
  | c :: rest =>
    let image :=
      if c = 'Σ' then [if meetsCased before && !meetsCased rest then 'ς' else 'σ']
      else mapCase lowerSequences lowerRuns c
    image ++ toLowerAfter (c :: before) rest

def toLower (s : List Char) : List Char := toLowerAfter [] s

def toUpper (s : List Char) : List Char := s.flatMap (mapCase upperSequences upperRuns)

end GraphPath.Text
