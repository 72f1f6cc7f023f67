/-! # Runs of code points

A property of characters, written as the list of the maximal runs of code points that have it.
-/

namespace GuardedStore.Text

/-- Runs of code points, each with its first and its last member. -/
abbrev CodeRuns := List (Nat × Nat)

def CodeRuns.contains (runs : CodeRuns) (c : Char) : Bool :=
  runs.any fun run => run.1 ≤ c.toNat && c.toNat ≤ run.2

end GuardedStore.Text
