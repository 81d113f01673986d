import CommandWire.Stream
import CommandWire.Text.Quoted

/-! Capturing what a request would put on the wire, in memory. -/

namespace CommandWire.Capture

/-- The stream that a capture writes to. -/
def stream : Stream := Stream.ofSink .default .memory

/-- Captures what a way of sending puts on the wire, together with the log. A failure of input and
    output, or about the content of a value, has no cause here but a mistake of the sender. -/
def bytesWith (send : Stream → Value → Attempt Stream) (v : Value) :
    List LogLine × Except Failure Bytes :=
  match (send stream v).andThen Stream.flush with
  | (s, none) =>
    (s.log ++ [.captured s.sink.content.length], .ok s.sink.content)
  | (s, some why) =>
    (s.log, .error (if why.isInputOutputOrContent then .unserialisable why else why))

/-- The bytes of a request. -/
def bytes : Value → List LogLine × Except Failure Bytes := bytesWith Stream.send

/-- The text in which every byte is the character of the same code point. -/
def latinText (data : Bytes) : String := String.ofList (Quoted.latin data)

/-- A way of sending that only raises an error. -/
def failing (f : Fault) (s : Stream) (_ : Value) : Attempt Stream := (s, some (.fault f))

end CommandWire.Capture
