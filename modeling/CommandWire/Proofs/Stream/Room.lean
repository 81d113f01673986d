import CommandWire.Proofs.Stream.Effect

/-! When writes reach the sink.

    A piece waits if it is smaller than the buffer and there is room for it. Any other piece forces
    something out, so that the sink gets a call:

        no smaller than the buffer    the piece itself, behind what waits
        no room for it                what waits, of which there is some

    A buffer that was empty has room for each of several pieces exactly if it has room for all of
    them together. -/

namespace CommandWire

/-- A delivery of anything makes an offer. -/
theorem Sink.calls_lt_deliver (k : Sink) {data : Bytes} (h : data ≠ []) :
    k.calls.length < (k.deliver data).1.calls.length := by
  have hoffer : k.calls.length < (k.afterOffer data).calls.length := by
    rw [afterOffer, List.length_append]
    exact Nat.lt_succ_self _
  rw [deliver, dif_neg h]
  split
  · exact hoffer
  · exact hoffer
  · next n _ =>
    split
    · exact hoffer
    · obtain ⟨offers, hcalls, -⟩ := calls_deliver (k.afterOffer data) (data.drop n.toNat)
      rw [hcalls, List.length_append]
      exact Nat.lt_add_right _ hoffer

namespace Stream

variable {s t u : Stream} {size : Nat}

/-! ### The number of calls -/

theorem OnlyOffers.length_le (h : OnlyOffers s t) : s.sink.calls.length ≤ t.sink.calls.length := by
  obtain ⟨offers, hcalls, -⟩ := h
  rw [hcalls, List.length_append]
  exact Nat.le_add_right _ _

/-- A drain of anything makes an offer. -/
theorem calls_lt_drain (h : s.pending ≠ []) :
    s.sink.calls.length < s.drain.1.sink.calls.length := by
  rw [drain, if_neg h]
  exact keeps_andThen (P := fun t : Stream => s.sink.calls.length < t.sink.calls.length)
    (s.sink.calls_lt_deliver h) fun t ht => ht

/-- Behind a drain that made an offer, nothing takes that back. -/
theorem calls_lt_drain_andThen (h : s.pending ≠ []) {next : Stream → Attempt Stream}
    (hnext : ∀ t, OnlyOffers t (next t).1) :
    s.sink.calls.length < (s.drain.andThen next).1.sink.calls.length :=
  keeps_andThen (P := fun t : Stream => s.sink.calls.length < t.sink.calls.length)
    (calls_lt_drain h) fun t ht => Nat.lt_of_lt_of_le ht (hnext t).length_le

/-! ### Room for pieces -/

/-- Every piece is smaller than a buffer of some size, and behind so many bytes that wait in it there
    is room for all of them. -/
def Fits (size waiting : Nat) (pieces : List Bytes) : Prop :=
  (∀ data ∈ pieces, data.length < size) ∧ waiting + pieces.flatten.length ≤ size

theorem fits_append {waiting : Nat} {pieces more : List Bytes} :
    Fits size waiting (pieces ++ more) ↔
      Fits size waiting pieces ∧ Fits size (waiting + pieces.flatten.length) more := by
  simp only [Fits, List.forall_mem_append, List.flatten_append, List.length_append]
  constructor
  · rintro ⟨⟨hpieces, hmore⟩, htotal⟩
    exact ⟨⟨hpieces, by omega⟩, hmore, by omega⟩
  · rintro ⟨⟨hpieces, -⟩, hmore, htotal⟩
    exact ⟨⟨hpieces, hmore⟩, by omega⟩

theorem fits_singleton {waiting : Nat} {data : Bytes} :
    Fits size waiting [data] ↔ data.length < size ∧ waiting + data.length ≤ size := by
  simp [Fits]

/-- What writing pieces has come to: those that the buffer has room for wait, and others made the
    sink get a call. -/
structure Written (size : Nat) (s : Stream) (pieces : List Bytes) (t : Stream) : Prop where
  waits : Fits size s.pending.length pieces →
    ∃ log, t = { s with pending := s.pending ++ pieces.flatten, log := log }
  forced : ¬ Fits size s.pending.length pieces → s.sink.calls.length < t.sink.calls.length

theorem Written.append {pieces more : List Bytes} (h : Written size s pieces u)
    (hmore : Fits size s.pending.length pieces → Written size u more t) (hgrows : OnlyOffers u t) :
    Written size s (pieces ++ more) t where
  waits hfits := by
    obtain ⟨hpieces, hrest⟩ := fits_append.mp hfits
    obtain ⟨log, rfl⟩ := h.waits hpieces
    obtain ⟨log', rfl⟩ := (hmore hpieces).waits (by simpa using hrest)
    exact ⟨log', by simp⟩
  forced hnot := by
    by_cases hpieces : Fits size s.pending.length pieces
    · obtain ⟨log, rfl⟩ := h.waits hpieces
      refine (hmore hpieces).forced fun hrest => hnot (fits_append.mpr ⟨hpieces, ?_⟩)
      simpa using hrest
    · exact Nat.lt_of_lt_of_le (h.forced hpieces) hgrows.length_le

/-- The calls of the sink tell whether there was room. -/
theorem Written.untouched_iff {pieces : List Bytes} (h : Written size s pieces t) :
    t.sink.calls = s.sink.calls ↔ Fits size s.pending.length pieces := by
  by_cases hfits : Fits size s.pending.length pieces
  · obtain ⟨log, rfl⟩ := h.waits hfits
    exact iff_of_true rfl hfits
  · refine iff_of_false (fun hcalls => ?_) hfits
    exact Nat.ne_of_gt (h.forced hfits) (congrArg List.length hcalls)

/-! ### One piece -/

/-- An open stream whose buffer has some size, and no more in it than that. -/
structure Ready (size : Nat) (s : Stream) : Prop where
  isOpen : s.closed = false
  capacity : s.capacity = .whole size
  pending : s.pending.length ≤ size

theorem Ready.write_of_fits (h : Ready size s) {data : Bytes}
    (hfits : Fits size s.pending.length [data]) : s.write data = (s.enqueue data, none) := by
  obtain ⟨hsmall, hroom⟩ := fits_singleton.mp hfits
  have hfilled : s.capacity.filledBy data.length = false := by
    rw [h.capacity]
    exact decide_eq_false (by omega)
  have hexceeded : s.capacity.exceededBy (s.pending.length + data.length) = false := by
    rw [h.capacity]
    exact decide_eq_false (by omega)
  rw [write, h.isOpen, hfilled, hexceeded]
  rfl

theorem Ready.calls_lt_write (h : Ready size s) (hsize : 1 ≤ size) {data : Bytes}
    (hnot : ¬ Fits size s.pending.length [data]) :
    s.sink.calls.length < (s.write data).1.sink.calls.length := by
  rw [fits_singleton] at hnot
  rw [write, h.isOpen, if_neg Bool.false_ne_true, h.capacity]
  split
  · next hfilled =>
    have hle : size ≤ data.length := of_decide_eq_true hfilled
    by_cases hnil : s.pending = []
    · have hdata : data ≠ [] := List.ne_nil_of_length_pos (by omega)
      rw [drain, if_pos hnil, Attempt.andThen_none]
      exact s.sink.calls_lt_deliver hdata
    · exact calls_lt_drain_andThen hnil fun t => onlyOffers_deliver t data
  · next hsmall =>
    have hlt : ¬ size ≤ data.length := fun hle => hsmall (decide_eq_true hle)
    have hover : size < s.pending.length + data.length := by omega
    have hexceeded : (Capacity.whole size).exceededBy (s.pending.length + data.length) = true :=
      decide_eq_true hover
    rw [if_pos hexceeded]
    have hwaiting : s.pending ≠ [] := List.ne_nil_of_length_pos (by omega)
    exact calls_lt_drain_andThen hwaiting fun t => .refl t

theorem Ready.written (h : Ready size s) (hsize : 1 ≤ size) (data : Bytes) :
    Written size s [data] (s.write data).1 where
  waits hfits := ⟨s.log, by rw [h.write_of_fits hfits, List.flatten_singleton, enqueue]⟩
  forced := h.calls_lt_write hsize

/-! ### Pieces in turn -/

/-- Pieces that wait leave room for the rest. -/
theorem Ready.of_waits (h : Ready size s) {pieces : List Bytes} (hwritten : Written size s pieces t)
    (hfits : Fits size s.pending.length pieces) : Ready size t := by
  obtain ⟨log, rfl⟩ := hwritten.waits hfits
  exact ⟨h.isOpen, h.capacity, by simpa using hfits.2⟩

theorem Ready.written_nil (h : Ready size s) : Written size s [] s where
  waits _ := ⟨s.log, by simp⟩
  forced hnot := absurd ⟨by simp, by simpa using h.pending⟩ hnot

theorem Ready.writtenAll (h : Ready size s) (hsize : 1 ≤ size) (pieces : List Bytes) :
    Written size s pieces (s.writeAll pieces).1 := by
  induction pieces generalizing s with
  | nil => exact h.written_nil
  | cons data rest ih =>
    have hfirst := h.written hsize data
    have hall : Written size s ([data] ++ rest) (s.writeAll (data :: rest)).1 := by
      refine hfirst.append (fun hfits => ?_) ?_
      · rw [writeAll, h.write_of_fits hfits, Attempt.andThen_none]
        rw [h.write_of_fits hfits] at hfirst
        exact ih (h.of_waits hfirst hfits)
      · exact keeps_andThen (P := OnlyOffers (s.write data).1) (.refl _) fun t ht =>
          ht.trans (onlyOffers_writeAll t rest)
    exact hall

/-! ### Operations and runs -/

/-- The pieces that an operation is given to write. -/
def Operation.pieces : Operation → List Bytes
  | .write data => [data]
  | .send v =>
    match v.toRequest with
    | .ok r => Wire.chunks r
    | .error _ => []
  | .block pieces _ => pieces
  | .flush | .close => []

/-- Whether an operation is a write or a request that is sent. -/
def Operation.writesOnly : Operation → Bool
  | .write _ | .send _ => true
  | _ => false

theorem Ready.perform (h : Ready size s) (hsize : 1 ≤ size) {op : Operation}
    (hop : op.writesOnly = true) : Written size s op.pieces (s.perform op).1 := by
  cases op with
  | write data => exact h.written hsize data
  | send v =>
    rw [Stream.perform, send, Operation.pieces]
    cases v.toRequest with
    | error why => exact h.written_nil
    | ok r =>
      -- the note that goes ahead of the pieces touches the log alone
      have hnoted : Ready size (s.act (.note r.note)).1 := ⟨h.isOpen, h.capacity, h.pending⟩
      have hwritten := hnoted.writtenAll hsize (Wire.chunks r)
      exact ⟨hwritten.waits, hwritten.forced⟩
  | flush | close | block => cases hop

theorem onlyOffers_perform {op : Operation} (hop : op.writesOnly = true) (s : Stream) :
    OnlyOffers s (s.perform op).1 := by
  cases op with
  | write data => exact onlyOffers_write s data
  | send v => exact onlyOffers_send s v
  | flush | close | block => cases hop

theorem onlyOffers_performAll {ops : List Operation} (hops : ∀ op ∈ ops, op.writesOnly = true)
    (s : Stream) : OnlyOffers s (s.performAll ops) := by
  induction ops generalizing s with
  | nil => exact .refl s
  | cons op ops ih =>
    obtain ⟨hop, hrest⟩ := List.forall_mem_cons.mp hops
    exact (onlyOffers_perform hop s).trans (ih hrest (s.perform op).1)

theorem Ready.performAll (h : Ready size s) (hsize : 1 ≤ size) {ops : List Operation}
    (hops : ∀ op ∈ ops, op.writesOnly = true) :
    Written size s (ops.flatMap Operation.pieces) (s.performAll ops) := by
  induction ops generalizing s with
  | nil => exact h.written_nil
  | cons op ops ih =>
    obtain ⟨hop, hrest⟩ := List.forall_mem_cons.mp hops
    have hfirst := h.perform hsize hop
    rw [List.flatMap_cons]
    exact hfirst.append (fun hfits => ih (h.of_waits hfirst hfits) hrest)
      (onlyOffers_performAll hrest (s.perform op).1)

/-- Writes and requests that are sent, on an open stream in which nothing waits: the sink gets no
    call exactly if every piece is smaller than the buffer and all of them together are no larger
    than it. Then the sink is as it was, and the pieces wait one behind the other. -/
theorem untouched_iff_fits {size : Int} (hsize : 1 ≤ size) (k : Sink) :
    ∃ s₀, start (some k) (some (.int size)) = .ok s₀ ∧
      ∀ run done s, Moment s₀ run done s → s.closed = false → s.pending = [] →
        ∀ ops : List Operation, (∀ op ∈ ops, op.writesOnly = true) →
          let pieces := ops.flatMap Operation.pieces
          let t := s.performAll ops
          (t.sink.calls = s.sink.calls ↔
            (∀ data ∈ pieces, (data.length : Int) < size) ∧ (pieces.flatten.length : Int) ≤ size) ∧
          (t.sink.calls = s.sink.calls → t.sink = s.sink ∧ t.pending = pieces.flatten) := by
  refine ⟨_, start_of_pos hsize _, ?_⟩
  intro run done s hs hopen hnil ops hops pieces t
  have hready : Ready size.toNat s := by
    refine ⟨hopen, ?_, by simp [hnil]⟩
    rw [hs.state, capacity_actAll]
    rfl
  have hwritten : Written size.toNat s pieces t := hready.performAll (by omega) hops
  have hfits : Fits size.toNat s.pending.length pieces ↔
      (∀ data ∈ pieces, (data.length : Int) < size) ∧ (pieces.flatten.length : Int) ≤ size := by
    rw [Fits, hnil, List.length_nil, Nat.zero_add]
    refine and_congr (forall₂_congr fun data _ => ?_) ?_ <;> omega
  refine ⟨hwritten.untouched_iff.trans hfits, fun hcalls => ?_⟩
  obtain ⟨log, hlog⟩ := hwritten.waits (hwritten.untouched_iff.mp hcalls)
  rw [hlog, hnil, List.nil_append]
  exact ⟨rfl, rfl⟩

/-- Fourteen bytes of room, which is just what a request without arguments takes: it waits, also
    with an empty piece behind it, but one more byte makes the sink get a call, and so does a single
    piece of fourteen bytes. -/
theorem untouched_iff_fits_ping :
    (1 : Int) ≤ 14 ∧
      ∃ s₀, start (some .memory) (some (.int 14)) = .ok s₀ ∧
        let ping : Operation := .send (.request 0 ⟨.command .ping, []⟩)
        (s₀.performAll [ping, .write []]).pending = ascii "*1\r\n$4\r\nPING\r\n" ∧
        (s₀.performAll [ping, .write [0]]).sink.calls ≠ s₀.sink.calls ∧
        (s₀.performAll [.write (List.replicate 14 0)]).sink.calls ≠ s₀.sink.calls := by
  obtain ⟨s₀, hstart, hrun⟩ := untouched_iff_fits (by decide : (1 : Int) ≤ 14) .memory
  have hs₀ := hstart
  rw [start_of_pos (by decide)] at hs₀
  have hfresh : s₀.closed = false ∧ s₀.pending = [] := by
    rw [← Except.ok.inj hs₀]
    exact ⟨rfl, rfl⟩
  have hwrites := hrun _ _ _ (moment_performAll s₀ []) hfresh.1 hfresh.2
  refine ⟨by decide, s₀, hstart, ?_⟩
  intro ping
  obtain ⟨hiff, hwaits⟩ := hwrites [ping, .write []] (by simp [ping, Operation.writesOnly])
  refine ⟨(hwaits (hiff.mpr (by decide +kernel))).2.trans (by decide +kernel), ?_, ?_⟩
  · intro hcalls
    have hroom := (hwrites [ping, .write [0]] (by simp [ping, Operation.writesOnly])).1.mp hcalls
    exact absurd hroom (by decide +kernel)
  · intro hcalls
    have hroom := (hwrites [.write (List.replicate 14 0)] (by decide)).1.mp hcalls
    exact absurd hroom (by decide +kernel)

end Stream
end CommandWire
