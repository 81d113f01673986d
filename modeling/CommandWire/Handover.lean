import CommandWire.Log
import CommandWire.Conversion
import CommandWire.Wire.Encode

/-! Handing a request over to a writer that keeps its pieces apart and is drained at the end. -/

namespace CommandWire

/-- Where a writer fails: at the piece after so many, or when it is drained. -/
inductive Trouble where
  | write (accepted : Nat) (f : Fault)
  | drain (f : Fault)
  deriving DecidableEq

/-- A call that a writer received: a piece that it accepted, a piece at which it failed, or a drain,
    which counts also if it failed. -/
inductive Writer.Call where
  | accepted (piece : Bytes)
  | failed (piece : Bytes)
  | drained
  deriving DecidableEq

/-- A writer: where it fails, and the calls that it received so far, in order. -/
structure Writer where
  trouble : Option Trouble
  calls : List Writer.Call
  deriving DecidableEq

namespace Writer

/-- The piece that a writer accepted in a call. -/
def Call.piece? : Call → Option Bytes
  | .accepted piece => some piece
  | _ => none

/-- The pieces that a writer accepted, in order. -/
def accepted (w : Writer) : List Bytes := w.calls.filterMap Call.piece?

/-- How often a writer was drained. -/
def drains (w : Writer) : Nat := w.calls.count .drained

/-- A writer that has received nothing yet. -/
def ofTrouble (trouble : Option Trouble) : Writer := ⟨trouble, []⟩

/-- A writer after further calls. -/
def after (w : Writer) (calls : List Call) : Writer := { w with calls := w.calls ++ calls }

@[simp] theorem accepted_ofTrouble (trouble : Option Trouble) :
    (ofTrouble trouble).accepted = [] := rfl

@[simp] theorem trouble_after (w : Writer) (calls : List Call) :
    (w.after calls).trouble = w.trouble := rfl

@[simp] theorem accepted_after (w : Writer) (calls : List Call) :
    (w.after calls).accepted = w.accepted ++ calls.filterMap Call.piece? :=
  List.filterMap_append

theorem after_after (w : Writer) (calls later : List Call) :
    (w.after calls).after later = w.after (calls ++ later) := by
  simp [after]

/-- Is given a piece, and accepts it or fails at it. -/
def write (w : Writer) (piece : Bytes) : Attempt Writer :=
  match w.trouble with
  | some (.write n f) =>
    if w.accepted.length = n then (w.after [.failed piece], some (.fault f))
    else (w.after [.accepted piece], none)
  | _ => (w.after [.accepted piece], none)

/-- Is given pieces in turn, up to the first at which it fails. -/
def writeAll (w : Writer) : List Bytes → Attempt Writer
  | [] => (w, none)
  | piece :: rest => (w.write piece).andThen (writeAll · rest)

/-- Drains a writer. -/
def drain (w : Writer) : Attempt Writer :=
  match w.trouble with
  | some (.drain f) => (w.after [.drained], some (.fault f))
  | _ => (w.after [.drained], none)

/-- Hands a value over, which has to be a request, and drains the writer behind its last piece. -/
def handOver (w : Writer) (v : Value) : List LogLine × Attempt Writer :=
  match v.toRequest with
  | .ok r =>
    ([.writing r.command.text r.size], (w.writeAll (Wire.chunks r)).andThen drain)
  | .error why => ([], (w, some why))

end Writer
end CommandWire
