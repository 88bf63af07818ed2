/-! The integers of the language: those of 64 bits with a sign. -/

namespace Tang.Integer

def least : Int := -0x8000000000000000

def greatest : Int := 0x7fffffffffffffff

/-- The integer of the language with a given value, if there is one. -/
def ofInt? (n : Int) : Option Int64 :=
  if least ≤ n ∧ n ≤ greatest then some (Int64.ofInt n) else none

theorem toInt_of_ofInt?_eq_some {n : Int} {m : Int64} (h : ofInt? n = some m) : m.toInt = n := by
  unfold ofInt? least greatest at h
  split at h
  · cases h
    exact Int64.toInt_ofInt_of_le (by omega) (by omega)
  · cases h

theorem ofInt?_toInt (n : Int64) : ofInt? n.toInt = some n := by
  have h₁ := n.le_toInt
  have h₂ := n.toInt_lt
  simp [ofInt?, least, greatest]
  omega

theorem ofInt?_eq_some_iff {n : Int} {m : Int64} : ofInt? n = some m ↔ m.toInt = n :=
  ⟨toInt_of_ofInt?_eq_some, fun h => h ▸ ofInt?_toInt m⟩

def render (n : Int64) : String :=
  toString n.toInt

end Tang.Integer
