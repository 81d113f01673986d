import CommandWire.Bytes
import CommandWire.Text.Printable

/-! Text in quotes, as it is shown to a reader.

    The quote is `'`, or `"` where the text has `'` and no `"`. A backslash stands before the quote
    and before itself; tab, line feed and carriage return have letters; what is not plain is written
    in hexadecimal, with two, four or eight digits. -/

namespace CommandWire.Quoted

/-- The quote around a text. -/
def mark (cs : List Char) : Char :=
  if cs.contains '\'' && !cs.contains '"' then '"' else '\''

/-- The `width` last hexadecimal digits of a number. -/
def hex : Nat → Nat → List Char
  | 0, _ => []
  | width + 1, n => hex width (n / 16) ++ [Nat.digitChar (n % 16)]

/-- One character in a quoted text. -/
def escape (plain : Char → Bool) (marked : List Char) (c : Char) : List Char :=
  if marked.contains c then ['\\', c]
  else if c = '\t' then ['\\', 't']
  else if c = '\n' then ['\\', 'n']
  else if c = '\r' then ['\\', 'r']
  else if plain c then [c]
  else if c.toNat < 0x100 then '\\' :: 'x' :: hex 2 c.toNat
  else if c.toNat < 0x10000 then '\\' :: 'u' :: hex 4 c.toNat
  else '\\' :: 'U' :: hex 8 c.toNat

/-- Characters between quotes; `also` lists what a backslash marks beside the quote and itself. -/
def write (plain : Char → Bool) (also cs : List Char) : List Char :=
  let quote := mark cs
  quote :: (cs.flatMap (escape plain (quote :: '\\' :: also)) ++ [quote])

/-- A text in quotes: every printable character shows as itself. -/
def text (cs : List Char) : List Char := write isPrintable [] cs

/-- The characters whose code points are the bytes. -/
def latin (data : Bytes) : List Char := data.map fun b => Char.ofNat b.toNat

/-- The printable characters of ASCII. -/
def isPlainAscii (c : Char) : Bool := ' ' ≤ c && c ≤ '~'

/-- A byte string in quotes, after a `b`. -/
def bytes (data : Bytes) : List Char := 'b' :: write isPlainAscii [] (latin data)

/-- The same for a buffer that can change, where `'` is always marked. -/
def buffer (data : Bytes) : List Char := 'b' :: write isPlainAscii ['\''] (latin data)

end CommandWire.Quoted
