/-!
# Spans of code points

A character class is given by the spans of code points that it covers, in increasing order.
-/

namespace GraphPath.Text

/-- Whether one of the increasing spans holds the code point; the search ends at the first span
that starts beyond it. -/
def inSpans : List (Nat × Nat) → Nat → Bool
  | [], _ => false
  | (first, last) :: rest, n => first ≤ n && (n ≤ last || inSpans rest n)

theorem inSpans_singleton (first last n : Nat) :
    inSpans [(first, last)] n = (decide (first ≤ n) && decide (n ≤ last)) := by
  simp [inSpans]

end GraphPath.Text
