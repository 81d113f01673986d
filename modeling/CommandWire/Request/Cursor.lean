import CommandWire.Conversion
import CommandWire.Wire.Encode

/-! Reading a request lazily, while it may still grow.

    A cursor stands at one place of the request and looks at it only when it is moved on, so it
    meets what was appended meanwhile. Once it has stopped or failed it stays stopped.

        header ──▶ command ──▶ param 0 ──▶ param 1 ──▶ … ──▶ stopped -/

namespace CommandWire

/-- What a cursor gives for an argument: its bytes, or those of its piece on the wire. -/
inductive Cursor.Form where | raw | bulk
  deriving DecidableEq

/-- Where a cursor stands. -/
inductive Cursor where
  | header
  | command (form : Cursor.Form)
  | param (form : Cursor.Form) (position : Nat)
  | stopped
  deriving DecidableEq

namespace Cursor

/-- A cursor over the pieces of a request on the wire. -/
def chunks : Cursor := .header

/-- A cursor over the arguments of a request, with the command or without it. -/
def arguments (withCommand : Bool) : Cursor :=
  if withCommand then .command .raw else .param .raw 0

/-- An argument in the form that a cursor gives. -/
def Form.write : Form → Argument → Bytes
  | .raw, a => a.raw
  | .bulk, a => Wire.bulk a.raw

/-- Moves a cursor on over a request as it is now; no item means that it has stopped. -/
def nextIn (r : Request) : Cursor → Cursor × Option Bytes
  | .header => (.command .bulk, some (Wire.header r.size))
  | .command form => (.param form 0, some (form.write r.command))
  | .param form i =>
    match r.params[i]? with
    | some a => (.param form (i + 1), some (form.write a))
    | none => (.stopped, none)
  | .stopped => (.stopped, none)

@[simp] theorem nextIn_stopped (r : Request) : nextIn r .stopped = (.stopped, none) := rfl

/-- Moves a cursor on over a value. Only a request can be read, which shows at the first step. -/
def next (c : Cursor) (v : Value) : Cursor × Except Failure (Option Bytes) :=
  match c with
  | .stopped => (.stopped, .ok none)
  | c =>
    match v.toRequest with
    | .ok r => let (c', item) := nextIn r c; (c', .ok item)
    | .error why => (.stopped, .error why)

end Cursor
end CommandWire
