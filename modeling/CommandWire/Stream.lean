import CommandWire.Conversion
import CommandWire.Log
import CommandWire.Sink
import CommandWire.Stream.Capacity
import CommandWire.Wire.Encode

/-! A buffered stream in front of a sink.

    Small pieces wait in the buffer until the next one would not fit; a piece as large as the buffer
    goes straight to the sink, behind what waits. The buffer is emptied only when the sink took all
    of it. -/

namespace CommandWire

/-- A stream: its buffer with what waits in it, whether it is closed, its sink, and its log. -/
structure Stream where
  capacity : Capacity
  pending : Bytes
  closed : Bool
  sink : Sink
  log : List LogLine
  deriving DecidableEq

namespace Stream

/-- A fresh stream in front of a sink. -/
def ofSink (capacity : Capacity) (sink : Sink) : Stream := ⟨capacity, [], false, sink, []⟩

/-- Starts a stream; a sink is needed, and a size may be given. -/
def start (sink : Option Sink) (size : Option Value) : Except Failure Stream :=
  match sink with
  | none => .error (.missing .sink)
  | some k =>
    match size with
    | none => .ok (ofSink .default k)
    | some v => (Capacity.ofValue v).map (ofSink · k)

/-- Hands bytes to the sink, past the buffer. -/
def deliver (s : Stream) (data : Bytes) : Attempt Stream :=
  let (k, why) := s.sink.deliver data
  ({ s with sink := k }, why)

/-- Hands the buffer to the sink, and empties it if the sink took all of it. -/
def drain (s : Stream) : Attempt Stream :=
  if s.pending = [] then (s, none)
  else
    let noted := { s with log := s.log ++ [LogLine.flushing s.pending.length] }
    (noted.deliver s.pending).andThen fun t => ({ t with pending := [] }, none)

/-- Puts a piece behind what waits. -/
def enqueue (s : Stream) (data : Bytes) : Stream := { s with pending := s.pending ++ data }

/-- Writes a piece. -/
def write (s : Stream) (data : Bytes) : Attempt Stream :=
  if s.closed then (s, some .closed)
  else if s.capacity.filledBy data.length then s.drain.andThen (·.deliver data)
  else if s.capacity.exceededBy (s.pending.length + data.length) then
    s.drain.andThen fun t => (t.enqueue data, none)
  else (s.enqueue data, none)

/-- Writes pieces in turn, up to the first that fails. -/
def writeAll (s : Stream) : List Bytes → Attempt Stream
  | [] => (s, none)
  | data :: rest => (s.write data).andThen (writeAll · rest)

/-- Sends a request, piece by piece, without a flush. -/
def sendRequest (s : Stream) (r : Request) : Attempt Stream :=
  let noted := { s with log := s.log ++ [LogLine.sending r.command.text r.size] }
  noted.writeAll (Wire.chunks r)

/-- Sends a value, which has to be a request. -/
def send (s : Stream) (v : Value) : Attempt Stream :=
  match v.toRequest with
  | .ok r => s.sendRequest r
  | .error why => (s, some why)

/-- Empties the buffer and lets the sink pass everything on. -/
def flush (s : Stream) : Attempt Stream :=
  if s.closed then (s, some .closed)
  else
    s.drain.andThen fun t =>
      let (k, why) := t.sink.flush
      ({ t with sink := k }, why)

/-- Closes a stream after a last flush, even if that fails. A second time does nothing. -/
def close (s : Stream) : Attempt Stream :=
  if s.closed then (s, none)
  else
    let (t, why) := s.flush
    ({ t with closed := true }, why)

/-- Writes pieces, perhaps meets an error from outside, and closes the stream in any case. A failure
    to close hides what happened before. -/
def block (s : Stream) (pieces : List Bytes) (fault : Option Fault) : Attempt Stream :=
  let (t, inside) := s.writeAll pieces
  let (u, leaving) := t.close
  (u, leaving <|> inside <|> fault.map .fault)

/-! ### A closed stream -/

theorem write_of_closed {s : Stream} (h : s.closed = true) (data : Bytes) :
    s.write data = (s, some .closed) := by
  rw [write, if_pos h]

theorem flush_of_closed {s : Stream} (h : s.closed = true) : s.flush = (s, some .closed) := by
  rw [flush, if_pos h]

theorem close_of_closed {s : Stream} (h : s.closed = true) : s.close = (s, none) := by
  rw [close, if_pos h]

/-- Closing closes, whether the last flush fails or not. -/
@[simp] theorem closed_close (s : Stream) : s.close.1.closed = true := by
  unfold close
  split
  · assumption
  · rfl

/-! ### Runs of operations -/

/-- An operation on a stream. -/
inductive Operation where
  | write (data : Bytes)
  | send (v : Value)
  | flush
  | close
  | block (pieces : List Bytes) (fault : Option Fault)

/-- One operation. -/
def perform (s : Stream) : Operation → Attempt Stream
  | .write data => s.write data
  | .send v => s.send v
  | .flush => s.flush
  | .close => s.close
  | .block pieces fault => s.block pieces fault

/-- Operations one after another; a failure does not stop the later ones. -/
def performAll (s : Stream) (ops : List Operation) : Stream :=
  ops.foldl (fun t op => (t.perform op).1) s

end Stream
end CommandWire
