import CommandWire.Failure
import CommandWire.Number.Layout

/-! Values as arguments.

    A number is written in decimal: an integer exactly, and only if its form can hold it; a float
    with the fewest digits that read back as the same float. Text is written in UTF-8, and bytes
    stand for themselves. Whatever else a caller hands over is refused, with the cause. -/

namespace CommandWire

/-- The least and the greatest number of a form of integers. -/
def NumberForm.bounds : NumberForm → Int × Int
  | .int32 => (-0x80000000, 0x7FFFFFFF)
  | _ => (-0x8000000000000000, 0x7FFFFFFFFFFFFFFF)

namespace Value

/-- The integer that a value is, if the form can hold it. A truth value is not one. -/
def toInteger (form : NumberForm) : Value → Except Failure Int
  | .none => .error (.missing (.number form))
  | .int n =>
    if form.bounds.1 ≤ n ∧ n ≤ form.bounds.2 then .ok n else .error (.outOfRange form n)
  | v => .error (.mistyped (.number form) v.kind)

/-- The 64-bit integer that a value is. -/
def toInt64 (v : Value) : Except Failure Int64 := (v.toInteger .int64).map Int64.ofInt

/-- The decimal of a 64-bit integer. -/
def int64Bytes (v : Value) : Except Failure Bytes :=
  v.toInt64.map fun n => Decimal.intBytes n.toInt

/-- The decimal of a 32-bit integer: that of the same number in 64 bits. -/
def int32Bytes (v : Value) : Except Failure Bytes := do
  let n ← v.toInteger .int32
  (Value.int n).int64Bytes

end Value

/-- Infinity on the wire always has a sign. -/
def Binary64.positiveInfinity : Bytes := ascii "+inf"

/-- Infinity below zero on the wire. -/
def Binary64.negativeInfinity : Bytes := ascii "-inf"

/-- The text of a double on the wire. -/
def Binary64.wireBytes (x : Binary64) : Except Failure Bytes :=
  if x.isNaN then .error .notANumber
  else if x.isInfinite then .ok (if x.negative then negativeInfinity else positiveInfinity)
  else .ok (ascii x.text)

namespace Value

/-- The text of a number as a double. An integer is rounded to the nearest one first. -/
def floatBytes : Value → Except Failure Bytes
  | .none => .error (.missing (.number .double))
  | .int n => (Binary64.ofInt? n).elim (.error (.outOfRange .double n)) Binary64.wireBytes
  | .float x => x.wireBytes
  | v => .error (.mistyped (.number .double) v.kind)

/-- A text in UTF-8. -/
def textBytes : Value → Except Failure Bytes
  | .text s => .ok (Utf8.encode s)
  | v => .error (.mistyped .text v.kind)

/-- The request that a value is; nothing else can be sent. -/
def toRequest : Value → Except Failure Request
  | .request _ r => .ok r
  | v => .error (.unsupported v.kind)

/-- Whether a value is a float. -/
def isFloat : Value → Bool
  | .float _ => true
  | _ => false

end Value

namespace Argument

/-- Exactly these bytes; only the fixed form of a byte string will do. -/
def ofExactBytes : Value → Except Failure Argument
  | .bytes .bytes data => .ok (.blob data)
  | v => .error (.mistyped .exactBytes v.kind)

/-- An integer of 32 bits. -/
def ofInt32 (v : Value) : Except Failure Argument := v.int32Bytes.map .blob

/-- An integer of 64 bits. -/
def ofInt64 (v : Value) : Except Failure Argument := v.int64Bytes.map .blob

/-- A number as a double. -/
def ofFloat (v : Value) : Except Failure Argument := v.floatBytes.map .blob

/-- A text. -/
def ofText (v : Value) : Except Failure Argument := v.textBytes.map .blob

/-- A byte string of any form. -/
def ofBytes : Value → Except Failure Argument
  | .bytes _ data => .ok (.blob data)
  | v => .error (.mistyped .bytes v.kind)

/-- A keyword, as it is. -/
def ofKeyword : Value → Except Failure Argument
  | .argument (.keyword k) => .ok (.keyword k)
  | v => .error (.mistyped .keyword v.kind)

/-- Any value that can stand as an argument, each by its own rule. -/
def ofValue : Value → Except Failure Argument
  | .none => .error (.missing .argument)
  | .argument a => .ok a
  | .bytes form data => ofBytes (.bytes form data)
  | .text s => ofText (.text s)
  | .bool _ => .error .truthValue
  | .int n => ofInt64 (.int n)
  | .float x => ofFloat (.float x)
  | v => .error (.unsupported v.kind)

end Argument

/-- A text in UTF-8, or nothing at all. -/
def Utf8.encodeValue : Value → Except Failure Bytes
  | .none => .error (.missing .text)
  | .text s => .ok (encode s)
  | _ => .error .noSuchMember

/-- The text of a byte string of any form, or nothing at all. -/
def Utf8.decodeValue : Value → Except Failure String
  | .none => .error (.missing .data)
  | .bytes _ data => .ok (decode data)
  | _ => .error .noSuchMember

end CommandWire
