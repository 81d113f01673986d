import CommandWire.Proofs.Stream.Effect

/-! Over a sink that always takes something, every byte arrives once and in order.

    Nothing that is asked of an open stream fails, and after every operation what the sink has,
    followed by what waits, is exactly what was handed over. That is said of the operations alone,
    so neither the size of the buffer nor the answers of the sink can show in it. -/

namespace CommandWire.Stream

/-- The bytes that an operation is given to hand over. -/
def Operation.data : Operation → Bytes
  | .write data => data
  | .send v =>
    match v.toRequest with
    | .ok r => Wire.encode r
    | .error _ => []
  | .block pieces _ => pieces.flatten
  | .flush | .close => []

/-- Whether an operation closes the stream; leaving a block does. -/
def Operation.closes : Operation → Bool
  | .close | .block _ _ => true
  | _ => false

/-- The failure that an operation brings with it: something sent that is no request, or an error
    that is raised inside a block. -/
def Operation.ownFailure : Operation → Option Failure
  | .send v =>
    match v.toRequest with
    | .ok _ => none
    | .error why => some why
  | .block _ fault => fault.map .fault
  | _ => none

/-- The bytes that operations hand over up to the first that closes the stream. -/
def handedOver : List Operation → Bytes
  | [] => []
  | op :: ops => op.data ++ if op.closes then [] else handedOver ops

/-- A state over a healthy sink in which exactly the given bytes have arrived or wait, and none wait
    behind a close. -/
structure Delivers (s : Stream) (bytes : Bytes) : Prop where
  healthy : s.sink.Healthy
  all : s.sink.content ++ s.pending = bytes
  settled : s.closed = true → s.pending = []

/-! ### Nothing fails -/

/-- Two attempts of which neither fails, with what they keep. -/
theorem succeeds_andThen {State : Type} {P : State → Prop} {first : Attempt State}
    {next : State → Attempt State} (hfirst : first.2 = none ∧ P first.1)
    (hnext : ∀ t, P t → (next t).2 = none ∧ P (next t).1) :
    (first.andThen next).2 = none ∧ P (first.andThen next).1 := by
  obtain ⟨t, why⟩ := first
  obtain ⟨rfl, ht⟩ := hfirst
  exact hnext t ht

variable {s : Stream}

theorem healthy_drain (h : s.sink.Healthy) : s.drain.2 = none ∧ s.drain.1.sink.Healthy := by
  unfold drain
  split
  · exact ⟨rfl, h⟩
  · exact succeeds_andThen (P := fun t : Stream => t.sink.Healthy) (h.deliver s.pending)
      fun t ht => ⟨rfl, ht⟩

theorem healthy_write (hopen : s.closed = false) (h : s.sink.Healthy) (data : Bytes) :
    (s.write data).2 = none ∧ (s.write data).1.sink.Healthy := by
  rw [write, hopen, if_neg Bool.false_ne_true]
  have hd := healthy_drain h
  split
  · exact succeeds_andThen (P := fun t : Stream => t.sink.Healthy) hd fun t ht => ht.deliver data
  · split
    · exact succeeds_andThen (P := fun t : Stream => t.sink.Healthy) hd fun t ht => ⟨rfl, ht⟩
    · exact ⟨rfl, h⟩

theorem healthy_flush (hopen : s.closed = false) (h : s.sink.Healthy) :
    s.flush.2 = none ∧ s.flush.1.sink.Healthy := by
  rw [flush, hopen, if_neg Bool.false_ne_true]
  exact succeeds_andThen (P := fun t : Stream => t.sink.Healthy) (healthy_drain h)
    fun t ht => ht.flush

/-! ### Nothing is lost or repeated -/

/-- An action that does not fail moves its bytes behind what was there. -/
theorem Effect.moves {a : Action} {outcome : Attempt Stream} (h : Effect s a outcome)
    (hok : outcome.2 = none) :
    outcome.1.sink.content ++ outcome.1.pending = s.sink.content ++ s.pending ++ a.data := by
  cases h with
  | idle lost content pending =>
    rcases lost with hdata | hwhy
    · rw [content, pending, hdata, List.append_nil]
    · exact absurd hok hwhy
  | queued fits content pending => rw [content, pending, List.append_assoc]
  | torn => cases hok
  | spilled => cases hok
  | emptied kept split fits content pending => rw [content, pending, split, List.append_assoc]

variable {bytes : Bytes}

theorem Delivers.write (h : Delivers s bytes) (hopen : s.closed = false) (data : Bytes) :
    (s.write data).2 = none ∧ Delivers (s.write data).1 (bytes ++ data) := by
  obtain ⟨hok, hsink⟩ := healthy_write hopen h.healthy data
  refine ⟨hok, hsink, ?_, ?_⟩
  · rw [(effect_write s data).moves hok, h.all]
    rfl
  · intro hclosed
    rw [(frame_write s data).closed, hopen] at hclosed
    cases hclosed

theorem Delivers.writeAll (h : Delivers s bytes) (hopen : s.closed = false) (pieces : List Bytes) :
    (s.writeAll pieces).2 = none ∧ (s.writeAll pieces).1.closed = false ∧
      Delivers (s.writeAll pieces).1 (bytes ++ pieces.flatten) := by
  induction pieces generalizing s bytes with
  | nil => exact ⟨rfl, hopen, by rw [List.flatten_nil, List.append_nil]; exact h⟩
  | cons data rest ih =>
    obtain ⟨hok, hnext⟩ := h.write hopen data
    have hstill := (frame_write s data).closed
    rw [Stream.writeAll]
    generalize s.write data = result at hok hnext hstill
    obtain ⟨t, why⟩ := result
    obtain rfl : why = none := hok
    rw [Attempt.andThen_none, List.flatten_cons, ← List.append_assoc]
    exact ih hnext (hstill.trans hopen)

/-- A flush that does not fail leaves nothing behind. -/
theorem pending_flush_of_ok (hopen : s.closed = false) (hok : s.flush.2 = none) :
    s.flush.1.pending = [] := by
  have hd := drain_drain s
  rw [flush, hopen, if_neg Bool.false_ne_true] at hok ⊢
  generalize s.drain = result at hd hok
  cases hd with
  | emptied content => rfl
  | torn split left content => cases hok

theorem Delivers.flush (h : Delivers s bytes) (hopen : s.closed = false) :
    s.flush.2 = none ∧ s.flush.1.pending = [] ∧ Delivers s.flush.1 bytes := by
  obtain ⟨hok, hsink⟩ := healthy_flush hopen h.healthy
  have hpending := pending_flush_of_ok hopen hok
  refine ⟨hok, hpending, hsink, ?_, fun _ => hpending⟩
  rw [(effect_flush s).moves hok, h.all]
  exact List.append_nil _

/-- Closing flushes an open stream, and there is nothing to flush in a closed one. -/
theorem Delivers.close (h : Delivers s bytes) :
    s.close.2 = none ∧ s.close.1.pending = [] ∧ Delivers s.close.1 bytes := by
  cases hclosed : s.closed with
  | true =>
    rw [close_of_closed hclosed]
    exact ⟨rfl, h.settled hclosed, h⟩
  | false =>
    obtain ⟨hok, hpending, hflushed⟩ := h.flush hclosed
    rw [Stream.close, hclosed, if_neg Bool.false_ne_true]
    exact ⟨hok, hpending, hflushed.healthy, hflushed.all, fun _ => hpending⟩

/-! ### Operations and runs -/

/-- Leaving a block is a close, and a failure of it hides the others. -/
theorem block_eq (s : Stream) (pieces : List Bytes) (fault : Option Fault) :
    s.block pieces fault = ((s.writeAll pieces).1.close.1,
      (s.writeAll pieces).1.close.2 <|> (s.writeAll pieces).2 <|> fault.map .fault) := rfl

/-- One operation on an open stream. -/
theorem Delivers.perform (h : Delivers s bytes) (hopen : s.closed = false) (op : Operation) :
    (s.perform op).2 = op.ownFailure ∧ (s.perform op).1.closed = op.closes ∧
      Delivers (s.perform op).1 (bytes ++ op.data) := by
  cases op with
  | write data =>
    obtain ⟨hok, hnext⟩ := h.write hopen data
    exact ⟨hok, (frame_write s data).closed.trans hopen, hnext⟩
  | send v =>
    rw [Stream.perform, send, Operation.ownFailure, Operation.data]
    cases v.toRequest with
    | error why => exact ⟨rfl, hopen, by rwa [List.append_nil]⟩
    | ok r =>
      -- the note that goes ahead of the pieces touches the log alone
      have hnoted : Delivers (s.act (.note r.note)).1 bytes := ⟨h.healthy, h.all, h.settled⟩
      exact hnoted.writeAll hopen (Wire.chunks r)
  | flush =>
    obtain ⟨hok, hpending, hnext⟩ := h.flush hopen
    exact ⟨hok, (frame_flush s).closed.trans hopen, by rwa [Operation.data, List.append_nil]⟩
  | close =>
    obtain ⟨hok, hpending, hnext⟩ := h.close
    exact ⟨hok, closed_close s, by rwa [Operation.data, List.append_nil]⟩
  | block pieces fault =>
    obtain ⟨hinside, hstill, hwritten⟩ := h.writeAll hopen pieces
    obtain ⟨hleaving, hpending, hnext⟩ := hwritten.close
    rw [Stream.perform, block_eq, hleaving, hinside]
    exact ⟨rfl, closed_close _, hnext⟩

theorem writeAll_of_closed (hclosed : s.closed = true) (pieces : List Bytes) :
    (s.writeAll pieces).1 = s := by
  cases pieces with
  | nil => rfl
  | cons data rest => rw [writeAll, write_of_closed hclosed, Attempt.andThen_some]

/-- On a closed stream an operation can do no more than note that it was tried. -/
theorem perform_of_closed (hclosed : s.closed = true) (op : Operation) :
    ∃ log, (s.perform op).1 = { s with log := log } := by
  cases op with
  | write data => exact ⟨s.log, by rw [perform, write_of_closed hclosed]⟩
  | send v =>
    rw [perform, send]
    cases v.toRequest with
    | error why => exact ⟨s.log, rfl⟩
    | ok r =>
      have hnoted : (s.act (.note r.note)).1.closed = true := hclosed
      exact ⟨s.log ++ [r.note], writeAll_of_closed hnoted (Wire.chunks r)⟩
  | flush => exact ⟨s.log, by rw [perform, flush_of_closed hclosed]⟩
  | close => exact ⟨s.log, by rw [perform, close_of_closed hclosed]⟩
  | block pieces fault =>
    exact ⟨s.log, by rw [perform, block_eq, writeAll_of_closed hclosed, close_of_closed hclosed]⟩

/-- Operations behind a close deliver nothing more. -/
theorem Delivers.performAll_of_closed (h : Delivers s bytes) (hclosed : s.closed = true)
    (ops : List Operation) : Delivers (s.performAll ops) bytes := by
  induction ops generalizing s with
  | nil => exact h
  | cons op ops ih =>
    obtain ⟨log, hlog⟩ := perform_of_closed hclosed op
    rw [performAll, List.foldl_cons, hlog]
    exact ih ⟨h.healthy, h.all, h.settled⟩ hclosed

/-- A run delivers what it hands over. -/
theorem Delivers.performAll (h : Delivers s bytes) (hopen : s.closed = false)
    (ops : List Operation) : Delivers (s.performAll ops) (bytes ++ handedOver ops) := by
  induction ops generalizing s bytes with
  | nil => rwa [handedOver, List.append_nil]
  | cons op ops ih =>
    obtain ⟨-, hcloses, hnext⟩ := h.perform hopen op
    rw [handedOver, ← List.append_assoc, Stream.performAll, List.foldl_cons]
    cases hop : op.closes with
    | true =>
      rw [if_pos rfl, List.append_nil]
      exact hnext.performAll_of_closed (hcloses.trans hop) ops
    | false =>
      rw [if_neg Bool.false_ne_true]
      exact ih hnext (hcloses.trans hop)

/-- Over a healthy sink and with a buffer of any size, whatever a run has handed over is in the sink
    or waits behind it, each byte once and in order; on an open stream nothing fails of its own
    accord; and a flush or a close leaves nothing waiting. -/
theorem healthy_delivery {size : Int} (hsize : 1 ≤ size) {responses : List Response}
    {flushes : List (Option Fault)} (hsink : (Sink.ofScript responses flushes).Healthy) :
    ∃ s₀, start (some (.ofScript responses flushes)) (some (.int size)) = .ok s₀ ∧
      ∀ ops, let s := s₀.performAll ops
        s.sink.content ++ s.pending = handedOver ops ∧
        (s.closed = true → s.pending = [] ∧ s.sink.content = handedOver ops) ∧
        (s.closed = false →
          (∀ op, (s.perform op).2 = op.ownFailure) ∧
          s.flush.1.pending = [] ∧ s.flush.1.sink.content = handedOver ops) ∧
        s.close.1.pending = [] ∧ s.close.1.sink.content = handedOver ops := by
  refine ⟨_, start_of_pos hsize _, ?_⟩
  intro ops s
  have hstart : Delivers (ofSink (.whole size.toNat) (.ofScript responses flushes)) [] :=
    ⟨hsink, rfl, fun _ => rfl⟩
  have hs : Delivers s (handedOver ops) := hstart.performAll rfl ops
  -- where nothing waits, the sink has everything
  have settled : ∀ {t : Stream}, Delivers t (handedOver ops) → t.pending = [] →
      t.sink.content = handedOver ops := by
    intro t ht hnil
    rw [← ht.all, hnil, List.append_nil]
  refine ⟨hs.all, ?_, ?_, ?_⟩
  · intro hclosed
    exact ⟨hs.settled hclosed, settled hs (hs.settled hclosed)⟩
  · intro hopen
    obtain ⟨-, hpending, hflushed⟩ := hs.flush hopen
    exact ⟨fun op => (hs.perform hopen op).1, hpending, settled hflushed hpending⟩
  · obtain ⟨-, hpending, hfinal⟩ := hs.close
    exact ⟨hpending, settled hfinal hpending⟩

/-- Four bytes of room, and a sink that takes one byte, then all while it reports five more, then
    two: the pieces, one of them larger than the buffer, arrive as they were written, and what is
    written behind the block does not. -/
theorem healthy_delivery_short_writes :
    (1 : Int) ≤ 4 ∧ (Sink.ofScript [.takes 1, .takesAll 5, .takes 2] [none]).Healthy ∧
      ∃ s₀, start (some (.ofScript [.takes 1, .takesAll 5, .takes 2] [none]))
          (some (.int 4)) = .ok s₀ ∧
        (s₀.performAll [.write [1, 2, 3], .write [4, 5], .flush, .block [[6, 7, 8, 9, 10]] none,
          .write [11]]).close.1.sink.content = [1, 2, 3, 4, 5, 6, 7, 8, 9, 10] := by
  have hsink : (Sink.ofScript [.takes 1, .takesAll 5, .takes 2] [none]).Healthy :=
    ⟨by decide, by decide⟩
  obtain ⟨s₀, hstart, hrun⟩ := healthy_delivery (by decide : (1 : Int) ≤ 4) hsink
  exact ⟨by decide, hsink, s₀, hstart, (hrun _).2.2.2.2⟩

end CommandWire.Stream
