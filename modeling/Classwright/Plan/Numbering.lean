/-
How many relationships each pair of classes has. The pair has no direction. The first relationship of a pair keeps the
plain names of its fields; the second adds `2` to each, the third `3`, and so on.
-/
import Classwright.NameTable

namespace Classwright

/-- the number of relationships of each pair counted so far -/
structure Numbering where
  counts : List ((String × String) × Nat) := []
  deriving Repr

namespace Numbering

/-- the same key for a pair in either direction -/
def key (a b : String) : String × String := if a ≤ b then (a, b) else (b, a)

def count (n : Numbering) (a b : String) : Nat := (Table.get? n.counts (key a b)).getD 0

/-- what the `k`-th relationship of a pair adds to its names -/
def suffix (k : Nat) : String := if k ≤ 1 then "" else Nat.repr k

/-- one more relationship of a pair -/
def advance (n : Numbering) (a b : String) : Numbering := ⟨Table.set n.counts (key a b) (n.count a b + 1)⟩

/-- what the next relationship of a pair adds to its names -/
def nextSuffix (n : Numbering) (a b : String) : String := suffix (n.count a b + 1)

end Numbering

end Classwright
