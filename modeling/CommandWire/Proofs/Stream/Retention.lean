import CommandWire.Proofs.Stream.Effect

/-! Bytes whose write did not fail are never lost, whatever the sink does.

    At every moment they are, in order, among what the sink has followed by what waits. The
    invariant says nothing about bytes whose write failed, nor that bytes arrive only once, and so
    it holds of every action of every sink: an action only ever appends to what the sink has, and
    it empties the buffer only when all of it was appended. Where a run of operations has come to is
    one of those moments, and behind an operation that asked the sink to pass on what it has nothing
    waits any more. -/

namespace CommandWire.Stream

/-- A state in which the given bytes are still there, and in which the buffer is not too full. -/
structure Retains (s : Stream) (bytes : Bytes) : Prop where
  kept : bytes.Sublist (s.sink.content ++ s.pending)
  fits : s.capacity.exceededBy s.pending.length = false

theorem gain_some (a : Action) (t : Stream) (why : Failure) : gain a (t, some why) = [] := rfl

theorem gain_sublist (a : Action) (outcome : Attempt Stream) :
    (gain a outcome).Sublist a.data := by
  unfold gain
  split
  · exact .refl _
  · exact List.nil_sublist _

/-- One action of any kind: a failing one keeps what there was, another one adds its bytes. -/
theorem Effect.retains {s : Stream} {a : Action} {outcome : Attempt Stream} {bytes : Bytes}
    (h : Effect s a outcome) (hcap : outcome.1.capacity = s.capacity) (hs : Retains s bytes) :
    Retains outcome.1 (bytes ++ gain a outcome) := by
  cases h with
  | @idle t why lost content pending =>
    have hgain : gain a (t, why) = [] := by
      rcases lost with hdata | hwhy
      · rw [gain, hdata, ite_self]
      · exact if_neg hwhy
    refine ⟨?_, by rw [hcap, pending]; exact hs.fits⟩
    rw [hgain, List.append_nil, content, pending]
    exact hs.kept
  | queued fits content pending =>
    refine ⟨?_, by rw [hcap, pending, List.length_append]; exact fits⟩
    rw [content, pending, ← List.append_assoc]
    exact hs.kept.append (gain_sublist a _)
  | @torn t why taken rest split left content pending =>
    refine ⟨?_, by rw [hcap, pending]; exact hs.fits⟩
    rw [gain_some, List.append_nil, content, pending, List.append_assoc]
    exact hs.kept.trans ((List.Sublist.refl _).append (List.sublist_append_right _ _))
  | spilled split left content pending =>
    refine ⟨?_, by rw [hcap, pending]; exact exceededBy_zero _⟩
    rw [gain_some, List.append_nil, content, pending, List.append_nil]
    exact hs.kept.trans (List.sublist_append_left _ _)
  | @emptied t why direct queued kept split fits content pending =>
    refine ⟨?_, by rw [hcap, pending]; exact fits⟩
    rw [content, pending, List.append_assoc _ direct, ← split]
    exact hs.kept.append (gain_sublist a _)

/-- Any number of actions. -/
theorem Retains.actAll {s : Stream} {bytes : Bytes} (h : Retains s bytes) (actions : List Action) :
    Retains (s.actAll actions) (bytes ++ s.accepted actions) := by
  induction actions generalizing s bytes with
  | nil =>
    rw [accepted, List.append_nil]
    exact h
  | cons a rest ih =>
    have hstep := (effect_act s a).retains (capacity_act s a) h
    have hrest := ih hstep
    rwa [List.append_assoc] at hrest

/-- At a moment of a run that starts with nothing. -/
theorem Retains.moment {s₀ s : Stream} {ops : List Operation} {done : List Action}
    (h : Retains s₀ []) (hs : Moment s₀ ops done s) : Retains s (s₀.accepted done) := by
  have hdone := h.actAll done
  rwa [← hs.state, List.nil_append] at hdone

theorem Retains.length_le {s : Stream} {bytes : Bytes} {n : Nat} (h : Retains s bytes)
    (hcapacity : s.capacity = .whole n) : s.pending.length ≤ n := by
  have hfits := h.fits
  rw [hcapacity] at hfits
  exact Nat.le_of_not_lt (of_decide_eq_false hfits)

/-- At every moment of every run, over every sink: the bytes of all writes that did not fail are, in
    order, among what the sink has and what waits; no more waits than the buffer can hold; and
    whenever the sink is asked to pass on what it has, nothing waits and it has all those bytes. So
    it is in particular after any operations, and behind one that asks the sink nothing waits. -/
theorem accepted_retained {size : Int} (hsize : 1 ≤ size) (responses : List Response)
    (flushes : List (Option Fault)) :
    ∃ s₀, start (some (.ofScript responses flushes)) (some (.int size)) = .ok s₀ ∧
      (∀ ops done s, Moment s₀ ops done s →
        (s₀.accepted done).Sublist (s.sink.content ++ s.pending) ∧
        s.pending.length ≤ size ∧
        ∀ a, Call.flush ∈ s.newCalls a →
          FlushedAt s a ∧ (s₀.accepted done).Sublist s.drain.1.sink.content) ∧
      ∀ ops, let s := s₀.performAll ops
        (s₀.accepted (s₀.trace ops)).Sublist (s.sink.content ++ s.pending) ∧
        s.pending.length ≤ size ∧
        ∀ op, let t := (s.perform op).1
          Call.flush ∈ t.sink.calls.drop s.sink.calls.length →
            t.pending = [] ∧ (s₀.accepted (s₀.trace (ops ++ [op]))).Sublist t.sink.content := by
  refine ⟨_, start_of_pos hsize _, ?_⟩
  generalize hs₀ : ofSink (.whole size.toNat) (.ofScript responses flushes) = s₀
  have hstart : Retains s₀ [] := by
    rw [← hs₀]
    exact ⟨List.nil_sublist _, exceededBy_zero _⟩
  have hroom : ∀ ops done s, Moment s₀ ops done s → (s.pending.length : Int) ≤ size := by
    intro ops done s hs
    have hcapacity : s.capacity = .whole size.toNat := by
      rw [hs.state, capacity_actAll, ← hs₀]
      rfl
    have hle := (hstart.moment hs).length_le hcapacity
    omega
  refine ⟨?_, ?_⟩
  · intro ops done s hs
    have hdone := hstart.moment hs
    refine ⟨hdone.kept, hroom ops done s hs, fun a ha => ?_⟩
    have hflushed := flushedAt_of_flush_mem ha
    refine ⟨hflushed, ?_⟩
    rw [hflushed.content]
    exact hdone.kept
  · intro ops s
    have hs := moment_performAll s₀ ops
    refine ⟨(hstart.moment hs).kept, hroom _ _ _ hs, ?_⟩
    intro op t hflush
    have hempty : t.pending = [] :=
      (onlyOffers_or_emptied_perform s op).resolve_left fun h => h.not_mem_drop hflush
    have hkept := (hstart.moment (moment_performAll s₀ (ops ++ [op]))).kept
    rw [performAll_concat] at hkept
    refine ⟨hempty, ?_⟩
    have hall : t.sink.content ++ t.pending = t.sink.content := by rw [hempty, List.append_nil]
    exact hall ▸ hkept

/-- A flush that takes one byte and then would have to wait, and a flush after it: the bytes are
    still there, now with the first one twice, and nothing waits. -/
theorem accepted_retained_blocked :
    (1 : Int) ≤ 4 ∧
      ∃ s₀, start (some (.ofScript [.takes 1, .blocks] [])) (some (.int 4)) = .ok s₀ ∧
        ([1, 2] : Bytes).Sublist
          ((s₀.performAll [.write [1, 2], .flush, .flush]).sink.content ++
            (s₀.performAll [.write [1, 2], .flush, .flush]).pending) ∧
        (s₀.performAll [.write [1, 2], .flush, .flush]).pending = [] := by
  obtain ⟨s₀, hstart, -, hrun⟩ :=
    accepted_retained (by decide : (1 : Int) ≤ 4) [.takes 1, .blocks] []
  have hs₀ : ofSink (.whole 4) (.ofScript [.takes 1, .blocks] []) = s₀ :=
    Except.ok.inj ((start_of_pos (by decide) _).symm.trans hstart)
  have haccepted : s₀.accepted (s₀.trace [.write [1, 2], .flush, .flush]) = [1, 2] := by
    rw [← hs₀]
    decide +kernel
  obtain ⟨hkept, -, -⟩ := hrun [.write [1, 2], .flush, .flush]
  rw [haccepted] at hkept
  obtain ⟨-, -, hasked⟩ := hrun [.write [1, 2], .flush]
  obtain ⟨hempty, -⟩ := hasked .flush (by rw [← hs₀]; decide +kernel)
  exact ⟨by decide, s₀, hstart, hkept, hempty⟩

end CommandWire.Stream
