/-
  Sets of characters given by ranges of code points.

  * `Ranges`: ranges in increasing order, both ends included;
  * `Ranges.contains`: membership, by halving.
-/

namespace Requisite

/-- Disjoint ranges of code points in increasing order, both ends included. -/
abbrev Ranges := Array (Nat × Nat)

namespace Ranges

/-- Whether `n` lies in one of the ranges from position `lo` up to position `hi`; each step
    halves their number. -/
def containsWithin (r : Ranges) (n : Nat) : Nat → Nat → Nat → Bool
  | 0, _, _ => false
  | steps + 1, lo, hi =>
    if lo < hi then
      let mid := (lo + hi) / 2
      match r[mid]? with
      | none => false
      | some (first, last) =>
        if n < first then containsWithin r n steps lo mid
        else if last < n then containsWithin r n steps (mid + 1) hi
        else true
    else false

/-- Whether a character lies in one of the ranges. -/
def contains (r : Ranges) (c : Char) : Bool :=
  r.containsWithin c.toNat (r.size.log2 + 1) 0 r.size

end Ranges

end Requisite
