import CommandWire.Conversion

/-! Making a range from values, and changing one. Every way in checks what it is given, the first
    bound before the second, so a range that exists can always be sent. -/

namespace CommandWire.Range

/-- A range whose bounds are both written in one way. -/
def build (mode : Mode) (written : Value → Except Failure Bytes) (min max : Value) :
    Except Failure Range := do
  let low ← written min
  let high ← written max
  return ofBounds mode low high

/-- A range of positions. -/
def byIndex : Value → Value → Except Failure Range := build .index Value.int64Bytes

/-- A range of scores. -/
def byScore : Value → Value → Except Failure Range := build .score Value.floatBytes

/-- A range in the order of texts. -/
def byLex : Value → Value → Except Failure Range := build .lex Value.textBytes

/-- A range of scores if either bound is a float, and of positions otherwise. -/
def ofNumbers (min max : Value) : Except Failure Range :=
  if min.isFloat || max.isFloat then byScore min max else byIndex min max

/-- A change of a range. -/
inductive Edit where
  | reverse
  | limit (offset count : Value)

/-- Turns the range around. -/
def reverse (p : Range) : Range := { p with reversed := true }

/-- Sets the window, or fails without a change where a number does not fit 64 bits. -/
def limit (p : Range) (offset count : Value) : Except Failure Range := do
  let o ← offset.toInt64
  let c ← count.toInt64
  return { p with window := some (o, c) }

/-- One change; a failing one leaves the range as it is. -/
def edit (p : Range) : Edit → Attempt Range
  | .reverse => (p.reverse, none)
  | .limit offset count =>
    match p.limit offset count with
    | .ok q => (q, none)
    | .error why => (p, some why)

/-- Changes one after another; a failure does not stop the later ones. -/
def editAll (p : Range) (edits : List Edit) : Range := edits.foldl (fun q e => (q.edit e).1) p

end CommandWire.Range
