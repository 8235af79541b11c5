/-
  Depot — sets of characters.

  A set of characters is given by the code points where it begins and ends, in
  turn and in ascending order: a character belongs to it exactly if an odd number
  of these boundaries lie at or below it.
-/

namespace Depot.Text

/-- A set of characters. -/
structure CharSet where
  /-- Where the set begins, where it ends, where it begins again, and so on. -/
  boundaries : List Nat
  deriving DecidableEq, Repr

def CharSet.contains (s : CharSet) (c : Char) : Bool :=
  (s.boundaries.takeWhile (· ≤ c.toNat)).length % 2 = 1

end Depot.Text
