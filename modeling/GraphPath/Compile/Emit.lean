import GraphPath.Compile.Error
import GraphPath.Pattern.Basic
import GraphPath.Settings.Basic

/-!
# Emitting patterns

Compiling a selector takes fresh variables and writes elements of a group, one after the other. Both
are kept by `Emit`: a step takes the allocator of variables and gives a value, the elements it wrote
and the allocator after it, or an error.
-/

namespace GraphPath

/-- Hands out variables: a stem with increasing numbers, without the root variable. -/
structure Allocator where
  stem : String
  root : Variable
  next : Nat
deriving DecidableEq

namespace Allocator

def ofSettings (s : Settings) : Allocator := ⟨s.variableStem, ⟨s.resultVariable⟩, 0⟩

def numbered (a : Allocator) (n : Nat) : Variable := ⟨a.stem ++ toString n⟩

/-- A variable that was not handed out before and is not the root. Names with different numbers
differ, so at most one number has to be passed over. -/
def fresh (a : Allocator) : Variable × Allocator :=
  if a.numbered a.next = a.root then (a.numbered (a.next + 1), { a with next := a.next + 2 })
  else (a.numbered a.next, { a with next := a.next + 1 })

/-- The next `count` fresh variables. -/
def freshes (a : Allocator) : Nat → List Variable × Allocator
  | 0 => ([], a)
  | count + 1 =>
    let (v, a') := a.fresh
    let (rest, a'') := a'.freshes count
    (v :: rest, a'')

end Allocator

/-- What a step of compilation leaves behind. -/
structure Emission (α : Type) where
  value : α
  elements : Group
  allocator : Allocator

def Emit (α : Type) : Type := Allocator → Except CompileError (Emission α)

namespace Emit

variable {α β : Type}

def done (a : α) : Emit α := fun alloc => .ok ⟨a, [], alloc⟩

def andThen (m : Emit α) (f : α → Emit β) : Emit β := fun alloc =>
  match m alloc with
  | .error e => .error e
  | .ok first =>
    match f first.value first.allocator with
    | .error e => .error e
    | .ok second => .ok ⟨second.value, first.elements ++ second.elements, second.allocator⟩

instance : Monad Emit where
  pure := done
  bind := andThen

theorem andThen_done (m : Emit α) : andThen m done = m := by
  funext alloc
  simp only [andThen, done]
  cases m alloc <;> simp

theorem done_andThen (a : α) (f : α → Emit β) : andThen (done a) f = f a := by
  funext alloc
  simp only [andThen, done]
  cases f a alloc <;> simp

theorem andThen_assoc {γ : Type} (m : Emit α) (f : α → Emit β) (g : β → Emit γ) :
    andThen (andThen m f) g = andThen m fun a => andThen (f a) g := by
  funext alloc
  simp only [andThen]
  cases m alloc with
  | error e => rfl
  | ok first =>
    cases h : f first.value first.allocator with
    | error e => simp [h]
    | ok second => cases h' : g second.value second.allocator <;> simp [h, h']

instance : LawfulMonad Emit := LawfulMonad.mk' Emit andThen_done done_andThen andThen_assoc

def fail (e : CompileError) : Emit α := fun _ => .error e

def ofExcept : Except CompileError α → Emit α
  | .ok a => done a
  | .error e => fail e

def fresh : Emit Variable := fun alloc =>
  let (v, alloc') := alloc.fresh
  .ok ⟨v, [], alloc'⟩

def write (e : Element) : Emit Unit := fun alloc => .ok ⟨(), [e], alloc⟩

def writeTriple (subject predicate object : Term) : Emit Unit :=
  write (.ofTriple subject predicate object)

/-- The step with what it wrote handed back and not written. -/
def captured (m : Emit α) : Emit (α × Group) := fun alloc =>
  match m alloc with
  | .error e => .error e
  | .ok emission => .ok ⟨(emission.value, emission.elements), [], emission.allocator⟩

/-- The steps one after the other. -/
def inOrder : List (Emit α) → Emit (List α)
  | [] => done []
  | m :: rest => do
    let a ← m
    let more ← inOrder rest
    return a :: more

/-- A step from each variable to the next, the given number of times. -/
def iterate (f : Variable → Emit Variable) : Nat → Variable → Emit Variable
  | 0, v => done v
  | n + 1, v => do
    let next ← f v
    iterate f n next

end Emit

end GraphPath
