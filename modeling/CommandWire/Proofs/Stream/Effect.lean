import CommandWire.Proofs.Sink.Delivery
import CommandWire.Proofs.Stream.Trace

/-! What one action does to the buffer and to what the sink has.

    Every action is of one of five kinds. It leaves both alone, puts its bytes behind the buffer,
    fails while it drains the buffer, fails behind a drained buffer while it writes its own bytes,
    or drains the buffer and goes on from an empty one.

        idle     content                           pending
        queued   content                           pending ++ data
        torn     content ++ part of pending        pending
        spilled  content ++ pending ++ part of data
        emptied  content ++ pending ++ direct      queued,  where data = direct ++ queued -/

namespace CommandWire.Stream

/-! ### Draining -/

/-- What a drain can come to: the buffer is empty, or it is as before and the sink took a part. -/
inductive Drain (s : Stream) : Attempt Stream → Prop where
  | emptied {k : Sink} {log : List LogLine} (content : k.content = s.sink.content ++ s.pending) :
      Drain s ({ s with sink := k, pending := [], log := log }, none)
  | torn {k : Sink} {log : List LogLine} {why : Failure} {taken rest : Bytes}
      (split : s.pending = taken ++ rest) (left : rest ≠ [])
      (content : k.content = s.sink.content ++ taken) :
      Drain s ({ s with sink := k, log := log }, some why)

theorem deliver_eq (s : Stream) (data : Bytes) :
    s.deliver data = ({ s with sink := (s.sink.deliver data).1 }, (s.sink.deliver data).2) := rfl

theorem drain_drain (s : Stream) : Drain s s.drain := by
  unfold drain
  split
  · next hnil =>
    have hempty : Drain s ({ s with sink := s.sink, pending := [], log := s.log }, none) :=
      .emptied (by rw [hnil, List.append_nil])
    rwa [← hnil] at hempty
  · simp only [deliver_eq]
    have hd := Sink.delivery_deliver s.sink s.pending
    generalize s.sink.deliver s.pending = result at hd
    cases hd with
    | all content => exact .emptied content
    | part split left content => exact .torn split left content

/-! ### One action -/

/-- What an action can come to, with the failure that it reports. -/
inductive Effect (s : Stream) (a : Action) : Attempt Stream → Prop where
  | idle {t : Stream} {why : Option Failure} (lost : a.data = [] ∨ why ≠ none)
      (content : t.sink.content = s.sink.content) (pending : t.pending = s.pending) :
      Effect s a (t, why)
  | queued {t : Stream} (fits : s.capacity.exceededBy (s.pending.length + a.data.length) = false)
      (content : t.sink.content = s.sink.content) (pending : t.pending = s.pending ++ a.data) :
      Effect s a (t, none)
  | torn {t : Stream} {why : Failure} {taken rest : Bytes} (split : s.pending = taken ++ rest)
      (left : rest ≠ []) (content : t.sink.content = s.sink.content ++ taken)
      (pending : t.pending = s.pending) : Effect s a (t, some why)
  | spilled {t : Stream} {why : Failure} {taken rest : Bytes} (split : a.data = taken ++ rest)
      (left : rest ≠ []) (content : t.sink.content = s.sink.content ++ s.pending ++ taken)
      (pending : t.pending = []) : Effect s a (t, some why)
  | emptied {t : Stream} {why : Option Failure} {direct queued : Bytes}
      (kept : a.data = [] ∨ why = none) (split : a.data = direct ++ queued)
      (fits : s.capacity.exceededBy queued.length = false)
      (content : t.sink.content = s.sink.content ++ s.pending ++ direct)
      (pending : t.pending = queued) : Effect s a (t, why)

theorem exceededBy_zero (c : Capacity) : c.exceededBy 0 = false := by
  cases c with
  | whole m | above m => exact decide_eq_false (Nat.not_lt_zero m)
  | unbounded => rfl

/-- A piece smaller than the buffer fits an empty one. -/
theorem exceededBy_of_not_filledBy {c : Capacity} {n : Nat} (h : c.filledBy n = false) :
    c.exceededBy n = false := by
  cases c with
  | whole m =>
    have hlt : ¬ m ≤ n := of_decide_eq_false h
    exact decide_eq_false (by omega)
  | above m => exact h
  | unbounded => rfl

theorem effect_write (s : Stream) (data : Bytes) : Effect s (.write data) (s.write data) := by
  have hd := drain_drain s
  unfold write
  split
  · exact .idle (.inr (by simp)) rfl rfl
  · split
    · -- the piece goes straight to the sink, behind what waits
      generalize s.drain = result at hd
      cases hd with
      | torn split left content => exact .torn split left content rfl
      | emptied content =>
        rename_i k log
        rw [Attempt.andThen_none, deliver_eq]
        have hk := Sink.delivery_deliver k data
        generalize k.deliver data = delivered at hk
        cases hk with
        | all hall =>
          exact .emptied (.inr rfl) (List.append_nil data).symm (exceededBy_zero _)
            (hall.trans (by rw [content])) rfl
        | part split left hpart => exact .spilled split left (hpart.trans (by rw [content])) rfl
    · next hfilled =>
      have hfit := exceededBy_of_not_filledBy (Bool.eq_false_iff.mpr hfilled)
      split
      · generalize s.drain = result at hd
        cases hd with
        | torn split left content => exact .torn split left content rfl
        | emptied content =>
          exact .emptied (.inr rfl) (List.nil_append data).symm hfit
            (content.trans (List.append_nil _).symm) (List.nil_append data)
      · next hfits => exact .queued (Bool.eq_false_iff.mpr hfits) rfl rfl

theorem effect_flush (s : Stream) : Effect s .flush s.flush := by
  have hd := drain_drain s
  unfold flush
  split
  · exact .idle (.inl rfl) rfl rfl
  · generalize s.drain = result at hd
    cases hd with
    | torn split left content => exact .torn split left content rfl
    | emptied content =>
      refine @Effect.emptied s .flush _ _ [] [] (.inl rfl) rfl (exceededBy_zero _) ?_ rfl
      exact (Sink.content_flush _).trans (content.trans (List.append_nil _).symm)

/-- Closing does to the bytes what flushing does. -/
theorem effect_close (s : Stream) : Effect s .close s.close := by
  have hf := effect_flush s
  unfold close
  split
  · exact .idle (.inl rfl) rfl rfl
  · generalize s.flush = result at hf
    cases hf with
    | idle lost content pending => exact .idle (.inl rfl) content pending
    | queued fits content pending =>
      exact .idle (.inl rfl) content (pending.trans (List.append_nil _))
    | torn split left content pending => exact .torn split left content pending
    | spilled split left content pending => exact .spilled split left content pending
    | emptied kept split fits content pending => exact .emptied kept split fits content pending

/-- One action is of one of the five kinds. -/
theorem effect_act (s : Stream) (a : Action) : Effect s a (s.act a) := by
  cases a with
  | note line => exact .idle (.inl rfl) rfl rfl
  | write data => exact effect_write s data
  | flush => exact effect_flush s
  | close => exact effect_close s

/-! ### What every action keeps -/

/-- What the first attempt ends with and the second one keeps, both keep. -/
theorem keeps_andThen {State : Type} {P : State → Prop} {first : Attempt State}
    {next : State → Attempt State} (hfirst : P first.1) (hnext : ∀ t, P t → P (next t).1) :
    P (first.andThen next).1 := by
  obtain ⟨t, why⟩ := first
  cases why with
  | none => exact hnext t hfirst
  | some why => exact hfirst

/-- Two states of a stream of one capacity, both open or both closed. -/
structure Frame (s t : Stream) : Prop where
  capacity : t.capacity = s.capacity
  closed : t.closed = s.closed

theorem frame_drain (s : Stream) : Frame s s.drain.1 := by
  have hd := drain_drain s
  generalize s.drain = result at hd
  cases hd <;> exact ⟨rfl, rfl⟩

theorem frame_write (s : Stream) (data : Bytes) : Frame s (s.write data).1 := by
  unfold write
  split
  · exact ⟨rfl, rfl⟩
  · split
    · exact keeps_andThen (P := Frame s) (frame_drain s) fun t ht => ⟨ht.capacity, ht.closed⟩
    · split
      · exact keeps_andThen (P := Frame s) (frame_drain s) fun t ht => ⟨ht.capacity, ht.closed⟩
      · exact ⟨rfl, rfl⟩

theorem frame_flush (s : Stream) : Frame s s.flush.1 := by
  unfold flush
  split
  · exact ⟨rfl, rfl⟩
  · exact keeps_andThen (P := Frame s) (frame_drain s) fun t ht => ⟨ht.capacity, ht.closed⟩

@[simp] theorem capacity_act (s : Stream) (a : Action) : (s.act a).1.capacity = s.capacity := by
  cases a with
  | note line => rfl
  | write data => exact (frame_write s data).capacity
  | flush => exact (frame_flush s).capacity
  | close =>
    rw [act, close]
    split
    · rfl
    · exact (frame_flush s).capacity

theorem capacity_actAll (s : Stream) (actions : List Action) :
    (s.actAll actions).capacity = s.capacity := by
  induction actions generalizing s with
  | nil => rfl
  | cons a rest ih => exact (ih (s.act a).1).trans (capacity_act s a)

/-! ### When the sink is asked to pass on what it has -/

/-- From one state to another the sink was only offered bytes. -/
def OnlyOffers (s t : Stream) : Prop :=
  ∃ offers, t.sink.calls = s.sink.calls ++ offers ∧ Call.flush ∉ offers

theorem OnlyOffers.refl (s : Stream) : OnlyOffers s s :=
  ⟨[], (List.append_nil _).symm, List.not_mem_nil⟩

theorem OnlyOffers.trans {s t u : Stream} (h : OnlyOffers s t) (h' : OnlyOffers t u) :
    OnlyOffers s u := by
  obtain ⟨before, hbefore, hnone⟩ := h
  obtain ⟨after, hafter, hnot⟩ := h'
  exact ⟨before ++ after, by rw [hafter, hbefore, List.append_assoc], by simp [hnone, hnot]⟩

theorem onlyOffers_deliver (s : Stream) (data : Bytes) : OnlyOffers s (s.deliver data).1 :=
  Sink.calls_deliver s.sink data

theorem onlyOffers_drain (s : Stream) : OnlyOffers s s.drain.1 := by
  unfold drain
  split
  · exact .refl s
  · exact keeps_andThen (P := OnlyOffers s) (onlyOffers_deliver s s.pending) fun t ht => ht

theorem onlyOffers_write (s : Stream) (data : Bytes) : OnlyOffers s (s.write data).1 := by
  unfold write
  split
  · exact .refl s
  · split
    · exact keeps_andThen (P := OnlyOffers s) (onlyOffers_drain s) fun t ht =>
        ht.trans (onlyOffers_deliver t data)
    · split
      · exact keeps_andThen (P := OnlyOffers s) (onlyOffers_drain s) fun t ht => ht
      · exact .refl s

theorem onlyOffers_writeAll (s : Stream) (pieces : List Bytes) :
    OnlyOffers s (s.writeAll pieces).1 := by
  induction pieces generalizing s with
  | nil => exact .refl s
  | cons data rest ih =>
    exact keeps_andThen (P := OnlyOffers s) (onlyOffers_write s data) fun t ht => ht.trans (ih t)

theorem onlyOffers_send (s : Stream) (v : Value) : OnlyOffers s (s.send v).1 := by
  rw [send]
  cases v.toRequest with
  | error why => exact .refl s
  | ok r => exact onlyOffers_writeAll (s.act (.note r.note)).1 (Wire.chunks r)

/-- In a flush the sink is only offered bytes, or nothing waits behind it: the sink is asked to pass
    on what it has only behind a complete drain. -/
theorem onlyOffers_or_emptied_flush (s : Stream) :
    OnlyOffers s s.flush.1 ∨ s.flush.1.pending = [] := by
  have hoffers := onlyOffers_drain s
  have hd := drain_drain s
  unfold flush
  split
  · exact .inl (.refl s)
  · generalize s.drain = result at hd hoffers
    cases hd with
    | emptied content => exact .inr rfl
    | torn split left content => exact .inl hoffers

theorem onlyOffers_or_emptied_close (s : Stream) :
    OnlyOffers s s.close.1 ∨ s.close.1.pending = [] := by
  unfold close
  split
  · exact .inl (.refl s)
  · exact onlyOffers_or_emptied_flush s

/-- The same of any operation; a block is some writes and a close. -/
theorem onlyOffers_or_emptied_perform (s : Stream) (op : Operation) :
    OnlyOffers s (s.perform op).1 ∨ (s.perform op).1.pending = [] := by
  cases op with
  | write data => exact .inl (onlyOffers_write s data)
  | send v => exact .inl (onlyOffers_send s v)
  | flush => exact onlyOffers_or_emptied_flush s
  | close => exact onlyOffers_or_emptied_close s
  | block pieces fault =>
    rcases onlyOffers_or_emptied_close (s.writeAll pieces).1 with hoffers | hempty
    · exact .inl ((onlyOffers_writeAll s pieces).trans hoffers)
    · exact .inr hempty

/-- The calls that the sink receives in an action. -/
def newCalls (s : Stream) (a : Action) : List Call :=
  (s.act a).1.sink.calls.drop s.sink.calls.length

theorem OnlyOffers.not_mem_drop {s t : Stream} (h : OnlyOffers s t) :
    Call.flush ∉ t.sink.calls.drop s.sink.calls.length := by
  obtain ⟨offers, hcalls, hnot⟩ := h
  rwa [hcalls, List.drop_left]

/-- An action asks the sink to pass on what it has: it does so right behind a drain that handed over
    the whole buffer, and until then the sink was only offered bytes. -/
structure FlushedAt (s : Stream) (a : Action) : Prop where
  offers : OnlyOffers s s.drain.1
  content : s.drain.1.sink.content = s.sink.content ++ s.pending
  emptied : s.drain.1.pending = []
  asked : (s.act a).1.sink = s.drain.1.sink.flush.1
  still : (s.act a).1.pending = []

theorem flushedAt_flush {s : Stream} (h : Call.flush ∈ s.newCalls .flush) : FlushedAt s .flush := by
  have hoffers := onlyOffers_drain s
  have hd := drain_drain s
  rw [newCalls, act] at h
  cases hclosed : s.closed with
  | true =>
    rw [flush_of_closed hclosed] at h
    exact absurd h (OnlyOffers.refl s).not_mem_drop
  | false =>
    have hflush : s.flush = s.drain.andThen fun t =>
        ({ t with sink := t.sink.flush.1 }, t.sink.flush.2) := by
      rw [flush, hclosed]
      rfl
    rw [hflush] at h
    generalize hdrain : s.drain = result at hd hoffers h hflush
    cases hd with
    | torn split left content => exact absurd h hoffers.not_mem_drop
    | emptied content =>
      exact ⟨by rwa [hdrain], by rw [hdrain]; exact content, by rw [hdrain],
        by rw [act, hflush, hdrain]; rfl, by rw [act, hflush]; rfl⟩

/-- Whatever asks the sink to pass on what it has does so behind a complete drain. -/
theorem flushedAt_of_flush_mem {s : Stream} {a : Action} (h : Call.flush ∈ s.newCalls a) :
    FlushedAt s a := by
  cases a with
  | note line => exact absurd h (OnlyOffers.refl s).not_mem_drop
  | write data => exact absurd h (onlyOffers_write s data).not_mem_drop
  | flush => exact flushedAt_flush h
  | close =>
    cases hclosed : s.closed with
    | true =>
      rw [newCalls, act, close_of_closed hclosed] at h
      exact absurd h (OnlyOffers.refl s).not_mem_drop
    | false =>
      have hclose : s.close.1 = { s.flush.1 with closed := true } := by
        rw [close, hclosed]
        rfl
      rw [newCalls, act, hclose] at h
      have hf := flushedAt_flush h
      exact ⟨hf.offers, hf.content, hf.emptied, by rw [act, hclose]; exact hf.asked,
        by rw [act, hclose]; exact hf.still⟩

end CommandWire.Stream
