import CommandWire.Conversion
import CommandWire.Value.Equality

/-! Hashes, and sets of values.

    A hash looks at what equality looks at and at nothing else: at a number whatever its kind, at
    the bytes of an argument, at the fields of a range. A value that can change has none. -/

namespace CommandWire

namespace Number

/-- The hash of a number: that of the integer which it is, or of its bits. -/
def hash : Number → UInt64
  | .int n => Hashable.hash n
  | .float x =>
    match x.toInt? with
    | some n => Hashable.hash n
    | none => Hashable.hash x.bits

end Number

namespace Range

/-- The hash of a range, over all of its fields. -/
def hash (p : Range) : UInt64 :=
  let window := p.window.map fun (offset, count) => (offset.toInt, count.toInt)
  Hashable.hash (p.mode.keyword?.map (·.name), p.min, p.max, p.reversed, window)

end Range

namespace Value

mutual

/-- The hash of a value, if it has one. -/
def hash : Value → Except Failure UInt64
  | .none => .ok 0
  | .bool b => .ok (Number.int b.toNat).hash
  | .int n => .ok (Number.int n).hash
  | .float x => .ok (Number.float x).hash
  | .text s => .ok (Hashable.hash s)
  | .bytes .buffer _ => .error (.unhashable .buffer)
  | .bytes _ data => .ok (Hashable.hash data)
  | .argument a => .ok (Hashable.hash a.raw)
  | .list _ => .error (.unhashable .list)
  | .tuple items => hashAll 7 items
  | .dict _ => .error (.unhashable .dict)
  | .emptyBuilder => .ok 1
  | .range p => .ok p.hash
  | .request number _ => .ok (Hashable.hash number)
  | .matcher m => .error (.unhashable m.kind)

/-- The hash of a sequence, on top of that of what came before it. -/
def hashAll (before : UInt64) : List Value → Except Failure UInt64
  | [] => .ok before
  | v :: vs => do
    let h ← v.hash
    hashAll (mixHash before h) vs

end

/-- Whether two values have one hash; fails where either has none. -/
def sameHash (a b : Value) : Except Failure Bool := do
  let x ← a.hash
  let y ← b.hash
  return x == y

/-- A set of values as a table of hashes: a value is in it if an equal one with its hash is. -/
def inTable (table : List (UInt64 × Value)) (h : UInt64) (v : Value) : Bool :=
  table.any fun (h', v') => h' == h && v'.eqv v

/-- Puts values into a table one by one, and tells which of them were new. -/
def novelties : List (UInt64 × Value) → List Value → Except Failure (List Bool)
  | _, [] => .ok []
  | table, v :: vs => do
    let h ← v.hash
    if inTable table h v then return false :: (← novelties table vs)
    else return true :: (← novelties ((h, v) :: table) vs)

/-- The places of the values that were new when all were put into a set in order. -/
def distinct (vs : List Value) : Except Failure (List Nat) := do
  let news ← novelties [] vs
  return (news.zipIdx.filter (·.1)).map (·.2)

/-- Puts an entry into a dictionary: a key that is there keeps its place and takes the value. -/
def putEntry (k v : Value) : List (Value × Value) → List (Value × Value)
  | [] => [(k, v)]
  | (k', v') :: rest => if k'.eqv k then (k', v) :: rest else (k', v') :: putEntry k v rest

/-- A dictionary with one more entry; its key needs a hash. -/
def insertEntry (entries : List (Value × Value)) (k v : Value) :
    Except Failure (List (Value × Value)) := do
  let _ ← k.hash
  return putEntry k v entries

end Value
end CommandWire
