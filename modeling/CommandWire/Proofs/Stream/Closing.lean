import CommandWire.Proofs.Stream.Delivery

/-! A stream that was closed stays as it is, and a block always closes its stream.

    Closing flushes and then closes, also if the flush failed. From then on every call is answered
    without a look at the buffer or at the sink, so neither changes any more:

        open ──close, failed or not──▶ closed ──any call──▶ closed, same buffer, same sink

    Leaving a block is a close, whatever happened inside, and of all that went wrong the last thing
    comes out: a failure to close, or else the failure that ended the body, or else nothing. -/

namespace CommandWire.Stream

variable {c s t : Stream}

/-! ### Behind a close -/

/-- A closed stream that is as it was at an earlier state: the sink received no call since, and what
    waited then is still all that waits. -/
structure Sealed (c t : Stream) : Prop where
  closed : t.closed = true
  sink : t.sink = c.sink
  pending : t.pending = c.pending

theorem Sealed.act (h : Sealed c t) (a : Action) : Sealed c (t.act a).1 := by
  cases a with
  | note line => exact ⟨h.closed, h.sink, h.pending⟩
  | write data =>
    rw [Stream.act, write_of_closed h.closed]
    exact h
  | flush =>
    rw [Stream.act, flush_of_closed h.closed]
    exact h
  | close =>
    rw [Stream.act, close_of_closed h.closed]
    exact h

theorem Sealed.actAll (h : Sealed c t) (actions : List Action) : Sealed c (t.actAll actions) := by
  induction actions generalizing t with
  | nil => exact h
  | cons a rest ih => exact ih (h.act a)

/-- A stream that answers every call without doing anything; that a request was to be sent is noted
    in its log, and that is all. -/
structure Refuses (t : Stream) : Prop where
  write : ∀ data, t.write data = (t, some .closed)
  flush : t.flush = (t, some .closed)
  send : ∀ number r,
    t.send (.request number r) = ({ t with log := t.log ++ [r.note] }, some .closed)
  close : t.close = (t, none)

theorem refuses_of_closed (h : t.closed = true) : Refuses t where
  write := write_of_closed h
  flush := flush_of_closed h
  send number r := by
    have hnoted : (t.act (.note r.note)).1.closed = true := h
    show (t.act (.note r.note)).1.writeAll (Wire.chunks r) =
      ((t.act (.note r.note)).1, some .closed)
    rw [Wire.chunks, writeAll, write_of_closed hnoted, Attempt.andThen_some]
  close := close_of_closed h

/-- From a close on, through any later operations. -/
theorem sealed_of_moment {later : List Operation} {after : List Action} (hclosed : c.closed = true)
    (ht : Moment c later after t) : Sealed c t ∧ Refuses t := by
  have hc : Sealed c c := ⟨hclosed, rfl, rfl⟩
  have hsealed : Sealed c t := by
    rw [ht.state]
    exact hc.actAll after
  exact ⟨hsealed, refuses_of_closed hsealed.closed⟩

/-! ### Blocks -/

/-- Operations in turn, up to the first that fails. -/
def attemptAll (s : Stream) : List Operation → Attempt Stream
  | [] => (s, none)
  | op :: rest => (s.perform op).andThen (attemptAll · rest)

/-- Of operations in turn, those that are performed: all up to the first that fails. -/
def performed (s : Stream) : List Operation → List Operation
  | [] => []
  | op :: rest =>
    op :: match s.perform op with
      | (t, none) => t.performed rest
      | (_, some _) => []

/-- A block with any operations in it, and perhaps an error from outside at its end. -/
def within (s : Stream) (body : List Operation) (fault : Option Fault) : Attempt Stream :=
  let (t, inside) := s.attemptAll body
  let (u, leaving) := t.close
  (u, leaving <|> inside <|> fault.map .fault)

theorem attemptAll_writes (s : Stream) (pieces : List Bytes) :
    s.attemptAll (pieces.map .write) = s.writeAll pieces := by
  induction pieces generalizing s with
  | nil => rfl
  | cons data rest ih =>
    have hrest : (attemptAll · (rest.map .write)) = (writeAll · rest) := funext ih
    rw [List.map_cons, attemptAll, hrest]
    rfl

theorem block_eq_within (s : Stream) (pieces : List Bytes) (fault : Option Fault) :
    s.block pieces fault = s.within (pieces.map .write) fault := by
  rw [block, within, attemptAll_writes]

/-- What writes in a block come down to: those up to the first that fails. -/
theorem trace_performed_write (s : Stream) (pieces : List Bytes) :
    s.trace (s.performed (pieces.map .write)) = s.writes pieces := by
  induction pieces generalizing s with
  | nil => rfl
  | cons data rest ih =>
    rw [List.map_cons, performed, trace, writes, perform, actions]
    rcases s.write data with ⟨t, _ | why⟩
    · exact congrArg (Action.write data :: ·) (ih t)
    · rfl

theorem attemptAll_fst (s : Stream) (body : List Operation) :
    (s.attemptAll body).1 = s.performAll (s.performed body) := by
  induction body generalizing s with
  | nil => rfl
  | cons op rest ih =>
    rw [attemptAll, performed, performAll, List.foldl_cons]
    rcases s.perform op with ⟨t, _ | why⟩
    · exact ih t
    · rfl

theorem within_fst (s : Stream) (body : List Operation) (fault : Option Fault) :
    (s.within body fault).1 = (s.performAll (s.performed body)).close.1 := by
  rw [← attemptAll_fst]
  rfl

/-- What comes out of a block is the last thing that went wrong. -/
theorem within_snd (s : Stream) (body : List Operation) (fault : Option Fault) :
    (s.within body fault).2 =
      ((s.attemptAll body).1.close.2 <|> (s.attemptAll body).2 <|> fault.map .fault) := rfl

/-! ### Over a healthy sink -/

/-- A write that did not fail adds its bytes, and nothing else changes what has arrived or waits. -/
theorem Delivers.act {bytes : Bytes} (h : Delivers s bytes) (a : Action) :
    Delivers (s.act a).1 (bytes ++ gain a (s.act a)) := by
  have hnothing : ∀ b : Action, b.data = [] → gain b (s.act b) = [] := by
    intro b hb
    rw [gain, hb, ite_self]
  cases a with
  | note line =>
    rw [hnothing _ rfl, List.append_nil]
    exact ⟨h.healthy, h.all, h.settled⟩
  | write data =>
    cases hclosed : s.closed with
    | true =>
      rw [Stream.act, write_of_closed hclosed, gain, if_neg (by simp), List.append_nil]
      exact h
    | false =>
      obtain ⟨hok, hwritten⟩ := h.write hclosed data
      rwa [Stream.act, gain, if_pos hok]
  | flush =>
    rw [hnothing _ rfl, List.append_nil]
    cases hclosed : s.closed with
    | true =>
      rw [Stream.act, flush_of_closed hclosed]
      exact h
    | false => exact (h.flush hclosed).2.2
  | close =>
    rw [hnothing _ rfl, List.append_nil]
    exact h.close.2.2

theorem Delivers.actAll {bytes : Bytes} (h : Delivers s bytes) (actions : List Action) :
    Delivers (s.actAll actions) (bytes ++ s.accepted actions) := by
  induction actions generalizing s bytes with
  | nil => rwa [accepted, List.append_nil]
  | cons a rest ih =>
    rw [accepted, ← List.append_assoc]
    exact ih (h.act a)

/-- Behind a block nothing waits, and all bytes of writes that did not fail have arrived. -/
theorem Delivers.within {bytes : Bytes} (h : Delivers s bytes) (body : List Operation)
    (fault : Option Fault) :
    (s.within body fault).1.pending = [] ∧
      (s.within body fault).1.sink.content =
        bytes ++ s.accepted (s.trace (s.performed body)) := by
  have hinside := h.actAll (s.trace (s.performed body))
  rw [actAll_trace] at hinside
  obtain ⟨-, hpending, hclosed⟩ := hinside.close
  rw [within_fst]
  refine ⟨hpending, ?_⟩
  rw [← hclosed.all, hpending, List.append_nil]

/-- A stream that was started is empty and open in front of its sink. -/
theorem start_eq_ok {k : Sink} {size : Option Value} (h : start (some k) size = .ok s) :
    ∃ capacity, s = ofSink capacity k := by
  unfold start at h
  cases size with
  | none => exact ⟨.default, (Except.ok.inj h).symm⟩
  | some v =>
    cases hv : Capacity.ofValue v with
    | error why =>
      simp only [hv] at h
      cases h
    | ok capacity =>
      simp only [hv] at h
      exact ⟨capacity, (Except.ok.inj h).symm⟩

/-! ### Every close and every block of a run -/

/-- What comes out when a block is left: a failure to close, or else what went wrong inside, or else
    the error from outside. -/
structure Leaves (inside left : Attempt Stream) (fault : Option Fault) : Prop where
  state : left.1 = inside.1.close.1
  closed : left.1.closed = true
  leaving : ∀ why, inside.1.close.2 = some why → left.2 = some why
  failed : inside.1.close.2 = none → ∀ why, inside.2 = some why → left.2 = some why
  fault : inside.1.close.2 = none → inside.2 = none → left.2 = fault.map .fault

theorem leaves_within (s : Stream) (body : List Operation) (fault : Option Fault) :
    Leaves (s.attemptAll body) (s.within body fault) fault where
  state := rfl
  closed := closed_close _
  leaving why h := by rw [within_snd, h]; rfl
  failed h why hinside := by rw [within_snd, h, hinside]; rfl
  fault h hinside := by rw [within_snd, h, hinside]; rfl

/-- At every moment of every run, over every sink: a close, whether it fails or not, leaves a stream
    that is closed at every later moment, whose buffer and sink stay as they are and which refuses
    every call. A block leaves such a stream too, whatever was done in it, and tells the last thing
    that went wrong; over a healthy sink nothing waits behind it and all bytes of writes that did
    not fail have arrived, each once and in order. So it is in particular after any operations, for
    what any later operations come to. -/
theorem closing_is_final {size : Option Value} {responses : List Response}
    {flushes : List (Option Fault)} {s₀ : Stream}
    (hstart : start (some (.ofScript responses flushes)) size = .ok s₀) :
    (∀ ops done s, Moment s₀ ops done s →
      (∀ later after t, Moment s.close.1 later after t → Sealed s.close.1 t ∧ Refuses t) ∧
      (∀ pieces fault, s.block pieces fault = s.within (pieces.map .write) fault) ∧
      ∀ body fault, let left := s.within body fault
        Leaves (s.attemptAll body) left fault ∧
        (∀ later after t, Moment left.1 later after t → Sealed left.1 t ∧ Refuses t) ∧
        ((Sink.ofScript responses flushes).Healthy →
          left.1.pending = [] ∧
          left.1.sink.content = s₀.accepted done ++ s.accepted (s.trace (s.performed body)))) ∧
    ∀ ops, let s := s₀.performAll ops
      (∀ later, let t := s.close.1.performAll later
        Sealed s.close.1 t ∧ Refuses t) ∧
      ∀ pieces fault, let left := s.block pieces fault
        Leaves (s.writeAll pieces) left fault ∧
        (∀ later, let t := left.1.performAll later
          Sealed left.1 t ∧ Refuses t) ∧
        ((Sink.ofScript responses flushes).Healthy →
          left.1.pending = [] ∧
          left.1.sink.content = s₀.accepted (s₀.trace ops) ++ s.accepted (s.writes pieces)) := by
  have hdelivers : (Sink.ofScript responses flushes).Healthy → ∀ done,
      Delivers (s₀.actAll done) (s₀.accepted done) := by
    intro hsink done
    obtain ⟨capacity, rfl⟩ := start_eq_ok hstart
    have hempty : Delivers (ofSink capacity (.ofScript responses flushes)) [] :=
      ⟨hsink, rfl, fun _ => rfl⟩
    exact hempty.actAll done
  refine ⟨?_, ?_⟩
  · intro ops done s hs
    refine ⟨fun _ _ _ => sealed_of_moment (closed_close s), s.block_eq_within, ?_⟩
    intro body fault left
    have hleaves : Leaves (s.attemptAll body) left fault := leaves_within s body fault
    refine ⟨hleaves, fun _ _ _ => sealed_of_moment hleaves.closed, fun hsink => ?_⟩
    have hbefore := hdelivers hsink done
    rw [← hs.state] at hbefore
    exact hbefore.within body fault
  · intro ops s
    refine ⟨fun later => sealed_of_moment (closed_close s) (moment_performAll _ later), ?_⟩
    intro pieces fault left
    have hwithin : left = s.within (pieces.map .write) fault := s.block_eq_within pieces fault
    have hleaves : Leaves (s.writeAll pieces) left fault := by
      rw [hwithin, ← attemptAll_writes]
      exact leaves_within s _ fault
    refine ⟨hleaves, fun later => sealed_of_moment hleaves.closed (moment_performAll _ later), ?_⟩
    intro hsink
    have hbefore := hdelivers hsink (s₀.trace ops)
    rw [actAll_trace] at hbefore
    have hall := hbefore.within (pieces.map .write) fault
    rwa [← block_eq_within, trace_performed_write] at hall

/-- The sink takes one byte of two and then would have to wait. A close fails and still is the last
    thing that happens, whatever is asked of the stream behind it; in a block whose body closes the
    stream, that failure comes out instead of the error from outside, for the close at the end has
    nothing left to do. -/
theorem closing_is_final_blocked :
    let s₀ := ofSink (.whole 4) (.ofScript [.takes 1, .blocks] [])
    let s := s₀.performAll [.write [1, 2]]
    start (some (.ofScript [.takes 1, .blocks] [])) (some (.int 4)) = .ok s₀ ∧
      s.close.2 = some (.blocked 1) ∧
      Sealed s.close.1 (s.close.1.performAll [.write [], .flush, .close]) ∧
      (∀ later number r, ((s.close.1.performAll later).send (.request number r)).1.sink =
        s.close.1.sink) ∧
      (s.within [.close, .write [3]] (some ⟨"KeyError", .other, "x"⟩)).2 = some (.blocked 1) := by
  intro s₀ s
  have hstart : start (some (.ofScript [.takes 1, .blocks] [])) (some (.int 4)) = .ok s₀ :=
    start_of_pos (by decide) _
  obtain ⟨hmoment, hrun⟩ := closing_is_final hstart
  obtain ⟨-, -, hblock⟩ := hmoment _ _ _ (moment_performAll s₀ [.write [1, 2]])
  obtain ⟨hfinal, -⟩ := hrun [.write [1, 2]]
  refine ⟨hstart, by decide +kernel, (hfinal _).1, ?_, ?_⟩
  · intro later number r
    obtain ⟨hsealed, hrefuses⟩ := hfinal later
    rw [hrefuses.send number r]
    exact hsealed.sink
  · obtain ⟨hleaves, -, -⟩ := hblock [.close, .write [3]] (some ⟨"KeyError", .other, "x"⟩)
    exact hleaves.failed (by decide +kernel) _ (by decide +kernel)

end CommandWire.Stream
