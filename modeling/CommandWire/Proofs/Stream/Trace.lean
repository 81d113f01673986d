import CommandWire.Stream

/-! What a run of operations comes down to.

    Whatever is asked of a stream, what it carries out is a sequence of writes, flushes and closes,
    with some notes in between: a request is written piece by piece up to the first piece that
    fails, and leaving a block is a close. The trace of a run lists these actions, so that a prefix
    of it is a moment of the run, also one in the middle of a request. -/

namespace CommandWire

/-- A wire request as a series of pieces, with the note that goes ahead of it. -/
def Request.note (r : Request) : LogLine := .sending r.command.text r.size

namespace Stream

/-- One thing that a stream carries out. -/
inductive Action where
  | note (line : LogLine)
  | write (data : Bytes)
  | flush
  | close

/-- The bytes that an action hands over. -/
def Action.data : Action → Bytes
  | .write data => data
  | _ => []

/-- Carries out one action. -/
def act (s : Stream) : Action → Attempt Stream
  | .note line => ({ s with log := s.log ++ [line] }, none)
  | .write data => s.write data
  | .flush => s.flush
  | .close => s.close

/-- Carries out actions one after another; a failure does not stop the later ones. -/
def actAll (s : Stream) (actions : List Action) : Stream :=
  actions.foldl (fun t a => (t.act a).1) s

/-- The writes of pieces in turn, up to the first that fails. -/
def writes (s : Stream) : List Bytes → List Action
  | [] => []
  | data :: rest =>
    .write data :: match s.write data with
      | (t, none) => t.writes rest
      | (_, some _) => []

/-- What an operation carries out. -/
def actions (s : Stream) : Operation → List Action
  | .write data => [.write data]
  | .send v =>
    match v.toRequest with
    | .ok r => .note r.note :: (s.act (.note r.note)).1.writes (Wire.chunks r)
    | .error _ => []
  | .flush => [.flush]
  | .close => [.close]
  | .block pieces _ => s.writes pieces ++ [.close]

/-- What a run of operations carries out. -/
def trace (s : Stream) : List Operation → List Action
  | [] => []
  | op :: ops => s.actions op ++ (s.perform op).1.trace ops

/-- All bytes that actions hand over, in order. -/
def handed (actions : List Action) : Bytes := actions.flatMap Action.data

/-- The bytes of an action, if it did not fail. -/
def gain (a : Action) (outcome : Attempt Stream) : Bytes := if outcome.2 = none then a.data else []

/-- The bytes of the writes that did not fail, in order. -/
def accepted (s : Stream) : List Action → Bytes
  | [] => []
  | a :: rest => gain a (s.act a) ++ accepted (s.act a).1 rest

/-! ### A run is its trace -/

theorem actAll_append (s : Stream) (before after : List Action) :
    s.actAll (before ++ after) = (s.actAll before).actAll after :=
  List.foldl_append

theorem actAll_writes (s : Stream) (pieces : List Bytes) :
    s.actAll (s.writes pieces) = (s.writeAll pieces).1 := by
  induction pieces generalizing s with
  | nil => rfl
  | cons data rest ih =>
    rw [writes, writeAll, actAll, List.foldl_cons]
    cases hw : s.write data with
    | mk t why =>
      cases why with
      | none => simpa [act, hw, actAll] using ih t
      | some why => simp [act, hw]

theorem actAll_actions (s : Stream) (op : Operation) :
    s.actAll (s.actions op) = (s.perform op).1 := by
  cases op with
  | write data => rfl
  | send v =>
    rw [actions, perform, send]
    cases v.toRequest with
    | error why => rfl
    | ok r => exact actAll_writes (s.act (.note r.note)).1 (Wire.chunks r)
  | flush => rfl
  | close => rfl
  | block pieces fault =>
    rw [actions, actAll_append, actAll_writes]
    rfl

/-- Carrying out the trace of a run is performing the run. -/
theorem actAll_trace (s : Stream) (ops : List Operation) :
    s.actAll (s.trace ops) = s.performAll ops := by
  induction ops generalizing s with
  | nil => rfl
  | cons op ops ih =>
    rw [trace, actAll_append, actAll_actions, ih]
    rfl

theorem performAll_concat (s : Stream) (ops : List Operation) (op : Operation) :
    s.performAll (ops ++ [op]) = ((s.performAll ops).perform op).1 :=
  List.foldl_append

/-- A moment of a run: what was carried out so far, and the state that this led to. -/
structure Moment (s₀ : Stream) (ops : List Operation) (done : List Action) (s : Stream) :
    Prop where
  so_far : done <+: s₀.trace ops
  state : s = s₀.actAll done

/-- The end of a run is a moment of it. -/
theorem moment_performAll (s₀ : Stream) (ops : List Operation) :
    Moment s₀ ops (s₀.trace ops) (s₀.performAll ops) :=
  ⟨List.prefix_refl _, (actAll_trace s₀ ops).symm⟩

/-! ### Where a run starts -/

/-- A stream in front of a sink may be given any positive size. -/
theorem start_of_pos {size : Int} (h : 1 ≤ size) (k : Sink) :
    start (some k) (some (.int size)) = .ok (ofSink (.whole size.toNat) k) := by
  have hle : ¬ size ≤ 0 := by omega
  rw [start, Capacity.ofValue, if_neg hle]
  rfl

end Stream
end CommandWire
