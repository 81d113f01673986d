import CommandWire.Number.Binary64
import CommandWire.Number.Decimal

/-! The digits of a double: the fewest that read back as the same double, and of those the ones
    nearest to it.

    A decimal `d · 10ᵏ` reads back as the double at index `i` when it lies between the midpoints to
    the magnitudes before and after it, the midpoints included where `i` is even. The search walks
    the grids `10ᵏ` from coarse to fine and stops at the first that has a point there; if any point
    of a grid does, so does one of the two neighbours of the double on that grid. -/

namespace CommandWire.Binary64

/-- The numerator and denominator of `d · 10ᵏ`. -/
def decimalRatio (d : Nat) (k : Int) : Nat × Nat := (d * Nat.pow 10 k.toNat, Nat.pow 10 (-k).toNat)

/-- Whether `d · 10ᵏ` reads back as the magnitude at index `i`, which is not zero. -/
def readsBack (i d : Nat) (k : Int) : Bool :=
  let (num, den) := decimalRatio d k
  let low := (units (i - 1) + units i) * den
  let high := (units i + units (i + 1)) * den
  let twice := 2 * num * one
  if i % 2 = 0 then low ≤ twice && twice ≤ high else low < twice && twice < high

/-- The neighbour of the magnitude at index `i` on the grid `10ᵏ` that reads back as it: the nearer
    one where both do, and of two equally near the even one. -/
def gridPoint? (i : Nat) (k : Int) : Option Nat :=
  let num := units i * Nat.pow 10 (-k).toNat
  let den := one * Nat.pow 10 k.toNat
  let below := num / den
  match readsBack i below k, readsBack i (below + 1) k with
  | true, true => some (roundHalfEven num den)
  | true, false => some below
  | false, true => some (below + 1)
  | false, false => none

/-- The first point found on at most so many grids, from `10ᵏ` downwards. -/
def searchGrids (i : Nat) : Nat → Int → Nat × Int
  | 0, k => (units i * Nat.pow 10 (-k).toNat / (one * Nat.pow 10 k.toNat), k)
  | fuel + 1, k =>
    match gridPoint? i k with
    | some d => (d, k)
    | none => searchGrids i fuel (k - 1)

/-- The exponent of the leading digit of the magnitude at an index that is not zero. The least
    magnitude has its leading digit at the 324th place, so 400 places show that of each. -/
def leadingExponent (i : Nat) : Int :=
  (Decimal.digits (units i * Nat.pow 10 400 / one)).length - 401

/-- The shortest decimal `d · 10ᵏ` of the magnitude at an index that is not zero. Eighteen grids
    are enough: the finest has seventeen digits, and those tell all doubles apart. -/
def shortest (i : Nat) : Nat × Int := searchGrids i 18 (leadingExponent i + 1)

end CommandWire.Binary64
