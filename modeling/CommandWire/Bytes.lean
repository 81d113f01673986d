/-! Byte strings, as lists, and the way ASCII text is written into them. -/

namespace CommandWire

/-- A byte string. -/
abbrev Bytes := List UInt8

/-- The bytes of a text whose characters are all ASCII, one byte each. -/
def ascii (s : String) : Bytes := s.toList.map fun c => UInt8.ofNat c.toNat

@[simp] theorem length_ascii (s : String) : (ascii s).length = s.length := by
  rw [ascii, List.length_map, String.length_toList]

/-- Carriage return, line feed: the end of every line on the wire. -/
def crlf : Bytes := [13, 10]

end CommandWire
