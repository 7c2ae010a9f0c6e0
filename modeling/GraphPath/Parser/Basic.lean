import GraphPath.Iri
import GraphPath.Text.Blank
import GraphPath.Text.Position

/-!
# Parsers

A parser reads a value from the front of a text. Beside its result it reports the failure that
lies furthest into the text among all the failures met on the way, also those of alternatives and
repetitions that were given up. The result never depends on the reported failure.
-/

namespace GraphPath

/-- Why a text is refused, where there is more to say than that nothing fits. -/
inductive Reason where
  | invalidIri (e : Iri.Error)
  | unknownShortName (name : String)
  | integerTooLarge
  | missingKeyword (keyword : String)
  | invertedBounds (min max : Nat)
deriving DecidableEq, Repr

def Reason.message : Reason → String
  | invalidIri e => e.message
  | unknownShortName name => s!"unknown prefix '{name}'"
  | integerTooLarge => "integer overflow"
  | missingKeyword keyword => s!"expected keyword '{keyword}'"
  | invertedBounds min max =>
    "recursion bounds \x7b" ++ toString min ++ "," ++ toString max ++ "\x7d are inverted"

/-- A failure after `reach` characters of the text. -/
structure Failure where
  reach : Nat
  reason : Option Reason
deriving DecidableEq, Repr

/-- The failure as it is seen from `n` characters earlier. -/
def Failure.after (n : Nat) (f : Failure) : Failure := { f with reach := n + f.reach }

/-- The failure that counts: the one further into the text, and of two at one place the first that
has a reason. -/
def Failure.further : Option Failure → Option Failure → Option Failure
  | none, b => b
  | some a, none => some a
  | some a, some b =>
    if a.reach < b.reach then some b
    else if b.reach < a.reach then some a
    else if a.reason.isSome then some a
    else some b

@[simp] theorem Failure.further_none (a : Option Failure) : Failure.further a none = a := by
  cases a <;> rfl

@[simp] theorem Failure.none_further (a : Option Failure) : Failure.further none a = a := rfl

theorem Failure.further_assoc (a b c : Option Failure) :
    Failure.further (Failure.further a b) c = Failure.further a (Failure.further b c) := by
  cases a with
  | none => rfl
  | some a =>
    cases b with
    | none => rfl
    | some b =>
      cases c with
      | none => simp
      | some c => grind [Failure.further]

theorem Failure.map_after_further (n : Nat) (a b : Option Failure) :
    (Failure.further a b).map (Failure.after n) =
      Failure.further (a.map (Failure.after n)) (b.map (Failure.after n)) := by
  cases a with
  | none => rfl
  | some a =>
    cases b with
    | none => rfl
    | some b => grind [Failure.further, Failure.after]

@[simp] theorem Failure.after_zero : Failure.after 0 = id := by
  funext f
  simp [Failure.after]

theorem Failure.after_comp_after (n m : Nat) :
    Failure.after n ∘ Failure.after m = Failure.after (n + m) := by
  funext f
  simp [Failure.after, Nat.add_assoc]

/-- A value, the number of characters it was read from, and the text behind them. -/
structure Reading (α : Type) where
  value : α
  taken : Nat
  rest : List Char

namespace Reading

variable {α : Type}

/-- The reading as it is seen from `n` characters earlier. -/
def after (n : Nat) (r : Reading α) : Reading α := { r with taken := n + r.taken }

@[simp] theorem after_zero : (after 0 : Reading α → Reading α) = id := by
  funext r
  simp [after]

theorem after_comp_after (n m : Nat) :
    (after n : Reading α → Reading α) ∘ after m = after (n + m) := by
  funext r
  simp [after, Nat.add_assoc]

end Reading

/-- What was read, and the furthest failure. -/
structure Reply (α : Type) where
  result : Option (Reading α)
  failure : Option Failure

def Parser (α : Type) : Type := List Char → Reply α

namespace Parser

variable {α β : Type}

def succeed (a : α) : Parser α := fun s => ⟨some ⟨a, 0, s⟩, none⟩

def fail : Parser α := fun _ => ⟨none, none⟩

def andThen (p : Parser α) (f : α → Parser β) : Parser β := fun s =>
  match p s with
  | ⟨none, failure⟩ => ⟨none, failure⟩
  | ⟨some r, failure⟩ =>
    let reply := f r.value r.rest
    ⟨reply.result.map (Reading.after r.taken),
      Failure.further failure (reply.failure.map (Failure.after r.taken))⟩

instance : Monad Parser where
  pure := succeed
  bind := andThen

theorem andThen_assoc {γ : Type} (p : Parser α) (f : α → Parser β) (g : β → Parser γ) :
    andThen (andThen p f) g = andThen p fun a => andThen (f a) g := by
  funext s
  simp only [andThen]
  cases p s with
  | mk result failure =>
    cases result with
    | none => rfl
    | some r =>
      cases h : f r.value r.rest with
      | mk result' failure' =>
        cases result' with
        | none => simp [h]
        | some r' =>
          simp [h, Reading.after, Failure.further_assoc, Failure.map_after_further,
            Failure.after_comp_after, Reading.after_comp_after]

instance : LawfulMonad Parser := LawfulMonad.mk' Parser
  (fun p => by
    funext s
    show andThen p succeed s = p s
    simp only [andThen, succeed]
    cases p s with
    | mk result failure => cases result <;> simp [Reading.after])
  (fun a f => by
    funext s
    show andThen (succeed a) f s = f a s
    simp [andThen, succeed])
  andThen_assoc

/-- The second parser from the same place if the first one fails. -/
def either (p q : Parser α) : Parser α := fun s =>
  match p s with
  | ⟨some r, failure⟩ => ⟨some r, failure⟩
  | ⟨none, failure⟩ =>
    let reply := q s
    ⟨reply.result, Failure.further failure reply.failure⟩

def firstOf : List (Parser α) → Parser α
  | [] => fail
  | p :: rest => either p (firstOf rest)

def optional (p : Parser α) : Parser (Option α) :=
  either (some <$> p) (succeed none)

/-- One character of a class. -/
def satisfy (accepts : Char → Bool) : Parser Char
  | [] => ⟨none, some ⟨0, none⟩⟩
  | c :: rest => if accepts c then ⟨some ⟨c, 1, rest⟩, none⟩ else ⟨none, some ⟨0, none⟩⟩

def char (c : Char) : Parser Unit := do
  let _ ← satisfy (· = c)

/-- The characters one after the other. -/
def chars : List Char → Parser Unit
  | [] => succeed ()
  | c :: rest => do
    char c
    chars rest

/-- The longest run of characters of a class; it ends at a failure. -/
def span (accepts : Char → Bool) : Parser (List Char) := fun s =>
  let run := s.takeWhile accepts
  ⟨some ⟨run, run.length, s.dropWhile accepts⟩, some ⟨run.length, none⟩⟩

/-- The longest run of characters of a class, at least one. -/
def span1 (accepts : Char → Bool) : Parser (List Char) := fun s =>
  let reply := span accepts s
  ⟨reply.result.filter fun r => !r.value.isEmpty, reply.failure⟩

def skipBlanks : Parser Unit := fun s =>
  ⟨some ⟨(), (s.takeWhile Text.isBlank).length, Text.skipBlanks s⟩, none⟩

/-- The parser with blanks passed over on both sides. -/
def padded (p : Parser α) : Parser α := do
  skipBlanks
  let a ← p
  skipBlanks
  return a

/-- The parser as one word of the language: a failure at its first character has no reason. -/
def lexeme (p : Parser α) : Parser α := fun s =>
  let reply := p s
  ⟨reply.result,
    reply.failure.map fun f => if f.reach = 0 then { f with reason := none } else f⟩

/-- The parser with a condition on its value. A value that is refused is a failure where the
parser started, and no other failure inside it counts. -/
def checked (f : α → Except Reason β) (p : Parser α) : Parser β := fun s =>
  match p s with
  | ⟨none, failure⟩ => ⟨none, failure⟩
  | ⟨some r, failure⟩ =>
    match f r.value with
    | .ok b => ⟨some { r with value := b }, failure⟩
    | .error reason => ⟨none, some ⟨0, some reason⟩⟩

/-- At most one round of a parser for each character of the first text, and one more. -/
def rounds (p : Parser α) : List Char → Parser (List α)
  | [] => either (do
      let a ← p
      return [a]) (succeed [])
  | _ :: more => either (do
      let a ← p
      let rest ← rounds p more
      return a :: rest) (succeed [])

/-- As many rounds of a parser as succeed. Each of them is to take a character, so that one more
round than there are characters cannot succeed. -/
def many (p : Parser α) : Parser (List α) := fun s => rounds p s s

/-- Values with a separator between each two; a separator that no value follows is left alone. -/
def separated (separator : Parser Unit) (p : Parser α) : Parser (List α) :=
  either (do
    let first ← p
    let rest ← many (do separator; p)
    return first :: rest) (succeed [])

/-- The end of the text. -/
def atEnd : Parser Unit
  | [] => ⟨some ⟨(), 0, []⟩, none⟩
  | _ :: _ => ⟨none, some ⟨0, none⟩⟩

/-- Reads a whole text. -/
def run (p : Parser α) (s : List Char) : Except Failure α :=
  let reply := (do
    let a ← p
    atEnd
    return a : Parser α) s
  match reply.result with
  | some r => .ok r.value
  | none => .error (reply.failure.getD ⟨0, none⟩)

end Parser

/-- The place of a failure in the text, in bytes from its start. -/
def Failure.offset (f : Failure) (s : List Char) : Nat :=
  Text.byteCount (s.take f.reach)

/-- The line and column of a failure in the text. -/
def Failure.position (f : Failure) (s : List Char) : Text.Position :=
  Text.Position.after (s.take f.reach)

/-- The report on a failure that has a reason. -/
def Failure.report? (f : Failure) (s : List Char) : Option String :=
  f.reason.map fun reason => (f.position s).report reason.message

end GraphPath
