import GraphPath.Query.Basic
import GraphPath.Query.Row

/-!
# Endpoints

Whatever answers queries. An answer is a list of rows, in the order of the store that gave it.
-/

namespace GraphPath

inductive ExecutionError where
  /-- More rows than may be held at once. -/
  | tooManyRows (cap : Nat)
  | failed (reason : String)
deriving DecidableEq, Repr

def ExecutionError.message : ExecutionError → String
  | tooManyRows cap =>
    s!"Query execution failed: intermediate result exceeds {cap} solutions"
  | failed reason => s!"Query execution failed: {reason}"

abbrev Endpoint := Query → Except ExecutionError (List Row)

end GraphPath
