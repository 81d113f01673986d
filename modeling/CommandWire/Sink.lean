import CommandWire.Failure

/-! Sinks: where bytes go in the end, and cannot be relied upon.

    A sink may take only a first part of what it is offered, take it all and report more, take
    nothing and say so in several ways, or raise an error. Which of these it does at each call is
    its script; when the script is used up it takes everything. -/

namespace CommandWire

/-- What a sink does with one offer of bytes. -/
inductive Response where
  /-- Takes so many of the first bytes, or all if there are fewer, and reports how many it took. -/
  | takes (n : Nat)
  /-- Takes all bytes and reports so many more. -/
  | takesAll (excess : Nat)
  /-- Takes nothing and reports zero or, if `below` is positive, a number below zero. -/
  | refuses (below : Nat)
  /-- Takes nothing, for it would have to wait. -/
  | blocks
  /-- Takes nothing and raises an error. -/
  | raises (f : Fault)
  deriving DecidableEq

/-- What a sink says about an offer. -/
inductive Reply where
  | count (n : Int)
  | wouldBlock
  | raised (f : Fault)
  deriving DecidableEq

namespace Response

/-- The part of an offer that a response takes. -/
def taken : Response → Bytes → Bytes
  | .takes n, data => data.take n
  | .takesAll _, data => data
  | _, _ => []

/-- What a response says about an offer. -/
def reply : Response → Bytes → Reply
  | .takes n, data => .count (min n data.length : Nat)
  | .takesAll excess, data => .count (data.length + excess : Nat)
  | .refuses below, _ => .count (-below)
  | .blocks, _ => .wouldBlock
  | .raises f, _ => .raised f

end Response

/-- A call that a sink received: an offer of so many bytes with what it took, or a flush. -/
inductive Call where
  | write (offered : Nat) (taken : Bytes)
  | flush
  deriving DecidableEq

/-- The bytes that a sink took in a call. -/
def Call.taken : Call → Bytes
  | .write _ taken => taken
  | .flush => []

/-- A sink: its script for writes and for flushes, and the calls that it received so far. -/
structure Sink where
  responses : List Response
  flushes : List (Option Fault)
  calls : List Call
  deriving DecidableEq

namespace Sink

/-- A sink in memory, which takes everything. -/
def memory : Sink := ⟨[], [], []⟩

/-- Everything that a sink took, in order. -/
def content (k : Sink) : Bytes := k.calls.flatMap Call.taken

/-- The next response of a sink to an offer. -/
def response (k : Sink) : Response := k.responses.head?.getD (.takesAll 0)

/-- A sink after an offer. -/
def afterOffer (k : Sink) (data : Bytes) : Sink :=
  { k with
    responses := k.responses.tail
    calls := k.calls ++ [.write data.length (k.response.taken data)] }

@[simp] theorem content_memory : memory.content = [] := rfl

@[simp] theorem content_afterOffer (k : Sink) (data : Bytes) :
    (k.afterOffer data).content = k.content ++ k.response.taken data := by
  simp [content, afterOffer, Call.taken]

/-- Offers bytes, again and again what is left of them, until all are taken or the sink fails.
    A report of more than was offered counts as all of it. -/
def deliver (k : Sink) (data : Bytes) : Attempt Sink :=
  if _ : data = [] then (k, none)
  else
    let next := k.afterOffer data
    match k.response.reply data with
    | .wouldBlock => (next, some (.blocked data.length))
    | .raised f => (next, some (.fault f))
    | .count n =>
      if _ : n ≤ 0 then (next, some (.refused data.length))
      else next.deliver (data.drop n.toNat)
termination_by data.length
decreasing_by
  have := List.length_pos_iff.mpr ‹_›
  simp only [List.length_drop]
  omega

@[simp] theorem deliver_nil (k : Sink) : k.deliver [] = (k, none) := by
  rw [deliver, dif_pos rfl]

/-- Asks a sink to pass on what it took. -/
def flush (k : Sink) : Attempt Sink :=
  ({ k with flushes := k.flushes.tail, calls := k.calls ++ [.flush] },
    (k.flushes.head?.getD none).map .fault)

@[simp] theorem content_flush (k : Sink) : k.flush.1.content = k.content := by
  simp [content, flush, Call.taken]

end Sink
end CommandWire
