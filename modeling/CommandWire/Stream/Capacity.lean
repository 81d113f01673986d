import CommandWire.Value.Printed

/-! The size of a buffer, as far as it decides what a piece of data does to it. -/

namespace CommandWire

/-- The size of a buffer. It may lie between two whole numbers, or past all of them. -/
inductive Capacity where
  | whole (n : Nat)
  | above (n : Nat)
  | unbounded
  deriving DecidableEq

namespace Capacity

/-- The capacity of a stream whose maker names none. -/
def default : Capacity := .whole 8192

/-- Whether a piece is as large as the whole buffer. -/
def filledBy : Capacity → Nat → Bool
  | .whole n, length => n ≤ length
  | .above n, length => n < length
  | .unbounded, _ => false

/-- Whether so many bytes are too many for the buffer. -/
def exceededBy : Capacity → Nat → Bool
  | .whole n, length => n < length
  | .above n, length => n < length
  | .unbounded, _ => false

/-- The capacity that a value asks for; it has to be above zero. -/
def ofValue (v : Value) : Except Failure Capacity := do
  let refusal : Except Failure Capacity := do
    .error (.badCapacity (String.ofList (← v.plain)))
  match v with
  | .int n => if n ≤ 0 then refusal else return .whole n.toNat
  | .bool b => if b then return .whole 1 else refusal
  | .float x =>
    if x.isNaN then return .unbounded
    else if x.negative || x.index = 0 then refusal
    else if x.isInfinite then return .unbounded
    else
      let units := Binary64.units x.index
      if units % Binary64.one = 0 then return .whole (units / Binary64.one)
      else return .above (units / Binary64.one)
  | v => .error (.incomparable v.kind)

end Capacity

end CommandWire
