/-! # Sets of characters

A set of characters is written as the code points at which membership changes, in ascending order:
where a run starts, where the next code point is outside again, and so on.  A character belongs to
the set if an odd number of changes lies at it or before it (`contains_run` is the case of one
run). -/

namespace RemoteConfig.Text

structure CodeSet where
  /-- Where membership changes, in ascending order. -/
  changes : List Nat
deriving DecidableEq, Repr

namespace CodeSet

def contains (s : CodeSet) (c : Char) : Bool := s.changes.countP (· ≤ c.toNat) % 2 = 1

/-- Two changes bound one run. -/
theorem contains_run {a b : Nat} (h : a ≤ b) (c : Char) :
    contains ⟨[a, b]⟩ c = (decide (a ≤ c.toNat) && decide (c.toNat < b)) := by
  by_cases ha : a ≤ c.toNat <;> by_cases hb : b ≤ c.toNat
  · simp [contains, ha, hb]
  · simp [contains, ha, hb, Nat.not_le.mp hb]
  · omega
  · simp [contains, ha, hb]

end CodeSet

end RemoteConfig.Text
