/-! Sets of characters given by closed intervals of code points. -/

namespace Tang.Text

/-- Closed intervals of code points, from low to high. -/
abbrev Ranges := List (Nat × Nat)

def Ranges.has (ranges : Ranges) (c : Char) : Bool :=
  ranges.any fun (low, high) => decide (low ≤ c.toNat) && decide (c.toNat ≤ high)

theorem Ranges.has_iff {ranges : Ranges} {c : Char} :
    ranges.has c = true ↔ ∃ r ∈ ranges, r.1 ≤ c.toNat ∧ c.toNat ≤ r.2 := by
  simp [Ranges.has]

end Tang.Text
