import CommandWire.Request
import CommandWire.Number.Decimal

/-! What the program notes about its own work. -/

namespace CommandWire

/-- A line of the log. -/
inductive LogLine where
  | sending (command : String) (size : Nat)
  | writing (command : String) (size : Nat)
  | flushing (size : Nat)
  | captured (size : Nat)
  deriving DecidableEq

namespace LogLine

/-- The log that a line goes to. -/
def logger : LogLine → String
  | .sending .. | .writing .. => "mini_resp.protocol"
  | .flushing _ => "mini_resp.stream"
  | .captured _ => "mini_resp.capture"

/-- The words of a line. -/
def message : LogLine → String
  | .sending command size =>
    "Sending " ++ command ++ " with " ++ Decimal.text size ++ " arguments"
  | .writing command size =>
    "Writing " ++ command ++ " with " ++ Decimal.text size ++ " arguments"
  | .flushing size => "Flushing " ++ Decimal.text size ++ " bytes to sink"
  | .captured size => "Captured " ++ Decimal.text size ++ " bytes"

end LogLine
end CommandWire
