/-! Double-precision numbers, exactly.

    The magnitude of every finite double is a whole number of *units* of 2⁻¹⁰⁷⁴, the least
    subnormal. The low 63 bits of its pattern are its *index*: the magnitudes, in order, are
    `units 0 < units 1 < …`, and the first index past the finite ones is the place of infinity.
    So rounding is finding the nearest index, and an even index is an even significand. -/

namespace CommandWire

/-- A double, as its 64 bits. -/
structure Binary64 where
  bits : UInt64
  deriving DecidableEq

namespace Binary64

/-- 2⁵², the number of magnitudes in every binade, and the weight of the leading bit there. -/
def binade : Nat := 0x10000000000000

/-- 2⁶³, the weight of the sign bit. -/
def signBit : Nat := 0x8000000000000000

/-- The index of infinity among the magnitudes; what lies past it is not a number. -/
def infinityIndex : Nat := 2047 * binade

/-- How many units make one. -/
def one : Nat := Nat.pow 2 1074

/-- The place of a double's magnitude in the order of magnitudes. -/
def index (x : Binary64) : Nat := x.bits.toNat % signBit

/-- The sign bit, set also in `-0.0`. -/
def negative (x : Binary64) : Bool := signBit ≤ x.bits.toNat

/-- The double with this sign and this index below 2⁶³. -/
def ofIndex (negative : Bool) (i : Nat) : Binary64 :=
  ⟨UInt64.ofNat (i + if negative then signBit else 0)⟩

/-- Whether a double is not a number. -/
def isNaN (x : Binary64) : Bool := infinityIndex < x.index

/-- Whether a double is infinity, of either sign. -/
def isInfinite (x : Binary64) : Bool := x.index = infinityIndex

/-- Whether a double is a finite number. -/
def isFinite (x : Binary64) : Bool := x.index < infinityIndex

/-- The magnitude at an index, in units. -/
def units (i : Nat) : Nat :=
  if i < binade then i else (binade + i % binade) * Nat.pow 2 (i / binade - 1)

/-- A quotient rounded to the nearest whole number, a half to the even one. -/
def roundHalfEven (num den : Nat) : Nat :=
  let q := num / den
  let r := num % den
  if 2 * r < den then q else if den < 2 * r then q + 1 else q + q % 2

/-- The index whose magnitude is nearest to `num / den` units, ties to the even index. -/
def nearest (num den : Nat) : Nat :=
  let s := Nat.log2 (num / den) - 52
  s * binade + roundHalfEven num (den * Nat.pow 2 s)

/-- The double nearest to an integer, if that is finite. -/
def ofInt? (n : Int) : Option Binary64 :=
  let i := nearest (n.natAbs * one) 1
  if i < infinityIndex then some (ofIndex (decide (n < 0)) i) else none

/-- Equality of numbers: both zeros are one number, and what is not a number equals nothing. -/
def eqv (x y : Binary64) : Bool :=
  !x.isNaN && !y.isNaN && (x = y || x.index = 0 && y.index = 0)

/-- The integer that a double is, if it is one. -/
def toInt? (x : Binary64) : Option Int :=
  if x.isFinite ∧ units x.index % one = 0 then
    let n : Int := (units x.index / one : Nat)
    some (if x.negative then -n else n)
  else none

end Binary64
end CommandWire
