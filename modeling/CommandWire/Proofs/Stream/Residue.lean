import CommandWire.Proofs.Stream.Effect

/-! What a call that failed leaves behind.

    A call drains the buffer at most once, and then it offers the sink its own bytes or asks it to
    pass everything on. Each of these can fail, but nothing that comes behind a failure happens, so
    the place of the failure can be told from the buffer:

        write   drain ──▶ data        flush   drain ──▶ pass on
                  │         │                   │         │
        buffer  as before  empty              as before  empty

    None of the data is ever left in the buffer, and the stream stays open. -/

namespace CommandWire

/-- What fails in two attempts is the first one, or the second one behind it. -/
theorem Attempt.andThen_eq_some {State : Type} {first : Attempt State} {next : State → Attempt State}
    {t : State} {why : Failure} (h : first.andThen next = (t, some why)) :
    first = (t, some why) ∨ ∃ u, first = (u, none) ∧ next u = (t, some why) := by
  rcases first with ⟨u, _ | failure⟩
  · exact .inr ⟨u, rfl, h⟩
  · exact .inl h

namespace Stream

variable {s t : Stream} {data : Bytes} {why : Failure}

/-! ### Where a call fails -/

/-- Bytes were offered to the sink behind what it had, and it failed before it took all of them. -/
def Halted (had data : Bytes) (t : Stream) (why : Failure) : Prop :=
  ∃ taken rest, data = taken ++ rest ∧ t.sink.StoppedAt (had ++ taken) rest why

theorem halted_of_deliver (h : s.deliver data = (t, some why)) :
    t.pending = s.pending ∧ Halted s.sink.content data t why := by
  obtain ⟨rfl, hwhy⟩ := Prod.mk.inj h
  exact ⟨rfl, Sink.stoppedAt_of_deliver (Prod.ext rfl hwhy)⟩

/-- A drain that failed left the buffer as it was. -/
theorem halted_of_drain (h : s.drain = (t, some why)) :
    t.pending = s.pending ∧ Halted s.sink.content s.pending t why := by
  unfold drain at h
  split at h
  · cases h
  · rcases Attempt.andThen_eq_some h with hdeliver | ⟨u, -, hcleared⟩
    · -- the note in the log changes neither the buffer nor the sink
      have hhalted := halted_of_deliver hdeliver
      exact hhalted
    · cases hcleared

/-- A drain that did not fail handed over the whole buffer. -/
theorem emptied_of_drain (h : s.drain = (t, none)) :
    t.pending = [] ∧ t.sink.content = s.sink.content ++ s.pending := by
  have hd := drain_drain s
  rw [h] at hd
  cases hd with
  | emptied content => exact ⟨rfl, content⟩

/-- A write fails while it drains the buffer, or behind an empty one while it hands over a piece as
    large as the buffer. -/
theorem write_eq_some (hopen : s.closed = false) (h : s.write data = (t, some why)) :
    s.drain = (t, some why) ∨ s.capacity.filledBy data.length = true ∧
      ∃ u, s.drain = (u, none) ∧ u.deliver data = (t, some why) := by
  rw [write, hopen, if_neg Bool.false_ne_true] at h
  split at h
  · next hfilled =>
    rcases Attempt.andThen_eq_some h with hdrain | ⟨u, hdrain, hdeliver⟩
    · exact .inl hdrain
    · exact .inr ⟨hfilled, u, hdrain, hdeliver⟩
  · split at h
    · rcases Attempt.andThen_eq_some h with hdrain | ⟨u, -, hqueued⟩
      · exact .inl hdrain
      · cases hqueued
    · cases h

/-- A flush fails while it drains the buffer, or behind an empty one when the sink does not pass on
    what it has. -/
theorem flush_eq_some (hopen : s.closed = false) (h : s.flush = (t, some why)) :
    s.drain = (t, some why) ∨
      ∃ u, s.drain = (u, none) ∧ t = { u with sink := t.sink } ∧
        u.sink.flush = (t.sink, some why) := by
  rw [flush, hopen, if_neg Bool.false_ne_true] at h
  rcases Attempt.andThen_eq_some h with hdrain | ⟨u, hdrain, hflush⟩
  · exact .inl hdrain
  · obtain ⟨rfl, hwhy⟩ := Prod.mk.inj hflush
    exact .inr ⟨u, hdrain, rfl, Prod.ext rfl hwhy⟩

/-! ### What it leaves behind -/

/-- A write that failed: the sink failed on what waited, which waits as before, or it took that and
    failed on the data, which is as large as the buffer. -/
theorem residue_of_write (hopen : s.closed = false) (h : s.write data = (t, some why)) :
    t.pending = s.pending ∧ Halted s.sink.content s.pending t why ∨
      s.capacity.filledBy data.length = true ∧ t.pending = [] ∧
        Halted (s.sink.content ++ s.pending) data t why := by
  rcases write_eq_some hopen h with hdrain | ⟨hfilled, u, hdrain, hdeliver⟩
  · exact .inl (halted_of_drain hdrain)
  · obtain ⟨hpending, hcontent⟩ := emptied_of_drain hdrain
    obtain ⟨hsame, hhalted⟩ := halted_of_deliver hdeliver
    exact .inr ⟨hfilled, hsame.trans hpending, hcontent ▸ hhalted⟩

/-- A flush that failed: the sink failed on what waited, which waits as before, or it took that and
    did not pass it on. -/
theorem residue_of_flush (hopen : s.closed = false) (h : s.flush = (t, some why)) :
    t.pending = s.pending ∧ Halted s.sink.content s.pending t why ∨
      t.pending = [] ∧ t.sink.content = s.sink.content ++ s.pending ∧
        ∃ k : Sink, k.flush = (t.sink, some why) := by
  rcases flush_eq_some hopen h with hdrain | ⟨u, hdrain, ht, hflush⟩
  · exact .inl (halted_of_drain hdrain)
  · obtain ⟨hpending, hcontent⟩ := emptied_of_drain hdrain
    have hkept := Sink.content_flush u.sink
    rw [hflush, hcontent] at hkept
    refine .inr ⟨?_, hkept, u.sink, hflush⟩
    rw [ht]
    exact hpending

/-- At every moment of every run at which the stream is open, over every sink: a write or a flush
    that fails leaves it open. Either a sink took a first part of what waited and then failed on the
    rest, and the buffer is as before; or the sink took all that waited and the buffer is empty.
    Then a write failed on its data, which are no smaller than the buffer and of which the sink took
    a first part, and a flush failed because the sink did not pass on what it has. -/
theorem failed_call_residue {size : Int} (hsize : 1 ≤ size) (responses : List Response)
    (flushes : List (Option Fault)) :
    ∃ s₀, start (some (.ofScript responses flushes)) (some (.int size)) = .ok s₀ ∧
      ∀ ops done s, Moment s₀ ops done s → s.closed = false →
        (∀ data t why, s.write data = (t, some why) → t.closed = false ∧
          (t.pending = s.pending ∧ Halted s.sink.content s.pending t why ∨
            size ≤ data.length ∧ t.pending = [] ∧
              Halted (s.sink.content ++ s.pending) data t why)) ∧
        ∀ t why, s.flush = (t, some why) → t.closed = false ∧
          (t.pending = s.pending ∧ Halted s.sink.content s.pending t why ∨
            t.pending = [] ∧ t.sink.content = s.sink.content ++ s.pending ∧
              ∃ k : Sink, k.flush = (t.sink, some why)) := by
  refine ⟨_, start_of_pos hsize _, ?_⟩
  intro ops done s hs hopen
  have hcapacity : s.capacity = .whole size.toNat := by
    rw [hs.state, capacity_actAll]
    rfl
  refine ⟨?_, ?_⟩
  · intro data t why hwrite
    have hstill := (frame_write s data).closed
    rw [hwrite, hopen] at hstill
    refine ⟨hstill, ?_⟩
    rcases residue_of_write hopen hwrite with hheld | ⟨hfilled, hspilled⟩
    · exact .inl hheld
    · rw [hcapacity] at hfilled
      have hle : size.toNat ≤ data.length := of_decide_eq_true hfilled
      exact .inr ⟨by omega, hspilled⟩
  · intro t why hflush
    have hstill := (frame_flush s).closed
    rw [hflush, hopen] at hstill
    exact ⟨hstill, residue_of_flush hopen hflush⟩

/-- Two bytes wait in a buffer of four. The sink takes them in two offers, then two of the five that
    are written, and then it would have to wait: nothing is left in the buffer. -/
theorem failed_call_residue_blocked :
    (1 : Int) ≤ 4 ∧
      ∃ s₀, start (some (.ofScript [.takes 1, .takesAll 3, .takes 2, .blocks] []))
          (some (.int 4)) = .ok s₀ ∧
        let s := s₀.performAll [.write [1, 2]]
        s.closed = false ∧ s.pending = [1, 2] ∧
          ∃ t, s.write [3, 4, 5, 6, 7] = (t, some (.blocked 3)) ∧ t.closed = false ∧
            t.pending = [] ∧ t.sink.content = [1, 2, 3, 4] ∧
            Halted [1, 2] [3, 4, 5, 6, 7] t (.blocked 3) := by
  obtain ⟨s₀, hstart, hrun⟩ := failed_call_residue (by decide : (1 : Int) ≤ 4)
    [.takes 1, .takesAll 3, .takes 2, .blocks] []
  obtain rfl := Except.ok.inj ((start_of_pos (by decide) _).symm.trans hstart)
  refine ⟨by decide, _, hstart, ?_⟩
  intro s
  have hopen : s.closed = false := by decide +kernel
  have hwrite : s.write [3, 4, 5, 6, 7] = ((s.write [3, 4, 5, 6, 7]).1, some (.blocked 3)) := by
    decide +kernel
  have hcontent : (s.write [3, 4, 5, 6, 7]).1.sink.content = [1, 2, 3, 4] := by decide +kernel
  refine ⟨hopen, by decide +kernel, _, hwrite, ?_⟩
  obtain ⟨hstill, hheld | ⟨-, hempty, hhalted⟩⟩ :=
    (hrun _ _ s (moment_performAll _ [.write [1, 2]]) hopen).1 _ _ _ hwrite
  · have hchanged : (s.write [3, 4, 5, 6, 7]).1.pending ≠ s.pending := by decide +kernel
    exact absurd hheld.1 hchanged
  · exact ⟨hstill, hempty, hcontent, hhalted⟩

end Stream
end CommandWire
