import CommandWire.Value

/-! Equality of values that hold no other values. Numbers are compared as numbers, whatever their
    kind and without rounding. -/

namespace CommandWire

/-- A number, which a value of more than one kind can be. -/
inductive Number where
  | int (n : Int)
  | float (x : Binary64)

namespace Number

/-- Equality of numbers, exact across their kinds. -/
def eqv : Number → Number → Bool
  | .int m, .int n => m == n
  | .int m, .float y => y.toInt? == some m
  | .float x, .int n => x.toInt? == some n
  | .float x, .float y => x.eqv y

end Number

namespace Value

/-- The number that a value is; a truth value counts as 0 or 1. -/
def number? : Value → Option Number
  | .bool b => some (.int b.toNat)
  | .int n => some (.int n)
  | .float x => some (.float x)
  | _ => .none

/-- Equality of values that hold no other values: numbers as numbers, byte strings by content,
    arguments by their bytes, requests as objects. -/
def atomEqv (a b : Value) : Bool :=
  match a.number?, b.number? with
  | some m, some n => m.eqv n
  | .none, .none =>
    match a, b with
    | .none, .none => true
    | .text s, .text t => s == t
    | .bytes _ x, .bytes _ y => x == y
    | .argument x, .argument y => x.eqv y
    | .range p, .range q => p == q
    | .request m _, .request n _ => m == n
    | _, _ => false
  | _, _ => false

end Value

end CommandWire
