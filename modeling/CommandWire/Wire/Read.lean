import CommandWire.Number.Decimal
import CommandWire.Wire.Encode

/-! Reading requests off the wire: the raw bytes of the arguments, and what follows the request.
    Numbers are canonical decimals and lines end in CRLF; anything else is refused. -/

namespace CommandWire.Wire

/-- Takes so many bytes off, if there are as many. -/
def takeExact (n : Nat) (s : Bytes) : Option (Bytes × Bytes) :=
  if n ≤ s.length then some (s.take n, s.drop n) else none

/-- Takes the end of a line off. -/
def readCrlf : Bytes → Option Bytes
  | 13 :: 10 :: rest => some rest
  | _ => none

/-- Reads a line that is a mark and a number. -/
def readCount (mark : UInt8) : Bytes → Option (Nat × Bytes)
  | [] => none
  | b :: s =>
    if b = mark then do
      let n ← Decimal.readNat (s.takeWhile (· ≠ 13))
      let rest ← readCrlf (s.dropWhile (· ≠ 13))
      return (n, rest)
    else none

/-- Reads one argument. -/
def readBulk (s : Bytes) : Option (Bytes × Bytes) := do
  let (n, s) ← readCount bulkMark s
  let (raw, s) ← takeExact n s
  let s ← readCrlf s
  return (raw, s)

/-- Reads so many arguments. -/
def readBulks : Nat → Bytes → Option (List Bytes × Bytes)
  | 0, s => some ([], s)
  | n + 1, s => do
    let (raw, s) ← readBulk s
    let (raws, s) ← readBulks n s
    return (raw :: raws, s)

/-- Reads one request: the raw bytes of its arguments, the command first. -/
def read (s : Bytes) : Option (List Bytes × Bytes) := do
  let (n, s) ← readCount arrayMark s
  readBulks n s

/-- Reads so many requests, one behind the other. -/
def readMany : Nat → Bytes → Option (List (List Bytes) × Bytes)
  | 0, s => some ([], s)
  | n + 1, s => do
    let (first, s) ← read s
    let (others, s) ← readMany n s
    return (first :: others, s)

end CommandWire.Wire
