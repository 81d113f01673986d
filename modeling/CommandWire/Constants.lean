import CommandWire.Conversion
import CommandWire.Stream
import CommandWire.Wire.Encode

/-! The fixed values of the format and of its carriers, by the names that they are known under. -/

namespace CommandWire

/-- A fixed value. -/
inductive Constant where
  | bytes (data : Bytes)
  | number (n : Int)
  | word (s : String)
  deriving DecidableEq

/-- The size of a buffer in whole bytes, if it is that. -/
def Capacity.bytes? : Capacity → Option Nat
  | .whole n => some n
  | _ => none

/-- Every fixed value with its name. -/
def constants : List (String × Constant) :=
  [ ("CRLF", .bytes crlf),
    ("ASTERISK_BYTE", .bytes [Wire.arrayMark]),
    ("DOLLAR_BYTE", .bytes [Wire.bulkMark]),
    ("CHARSET", .word "utf-8"),
    ("CAPTURE_CHARSET", .word "iso-8859-1"),
    ("DEFAULT_BUFFER_SIZE", .number (Capacity.default.bytes?.getD 0)),
    ("POSITIVE_INFINITY_BYTES", .bytes Binary64.positiveInfinity),
    ("NEGATIVE_INFINITY_BYTES", .bytes Binary64.negativeInfinity),
    ("INT_MIN", .number NumberForm.int32.bounds.1),
    ("INT_MAX", .number NumberForm.int32.bounds.2),
    ("LONG_MIN", .number NumberForm.int64.bounds.1),
    ("LONG_MAX", .number NumberForm.int64.bounds.2) ]

end CommandWire
