import CommandWire.Handover
import CommandWire.Proofs.Request.Reading

/-! What a writer gets of a request, and when it is drained.

    The pieces of a request are handed over one by one, and the writer may fail at any of them, or
    when it is drained. No call comes behind one that failed, so the calls that a writer received
    say all that happened, and they are of two forms:

        pieces      header     argument   argument   argument
        fails       accepted   accepted   failed                 not drained
        drains      accepted   accepted   accepted   accepted    drained

    The pieces arrive as they are read, none of them cut or joined to another. -/

namespace CommandWire.Writer

variable {w : Writer} {piece : Bytes} {pieces : List Bytes} {n : Nat} {f : Fault}

/-! ### Calls -/

theorem filterMap_piece?_accepted (pieces : List Bytes) :
    (pieces.map Call.accepted).filterMap Call.piece? = pieces := by
  simp [List.filterMap_map, Function.comp_def, Call.piece?]

/-- Pieces that were accepted, and behind them a call in which none was. -/
theorem accepted_of_last {last : Call} (hlast : last.piece? = none) (trouble : Option Trouble)
    (pieces : List Bytes) :
    (⟨trouble, pieces.map .accepted ++ [last]⟩ : Writer).accepted = pieces := by
  show (pieces.map Call.accepted ++ [last]).filterMap Call.piece? = pieces
  rw [List.filterMap_append, filterMap_piece?_accepted, List.filterMap_cons_none hlast]
  exact List.append_nil _

/-- A writer that was given pieces is drained only if the call behind them does it. -/
theorem drains_of_last (last : Call) (trouble : Option Trouble) (pieces : List Bytes) :
    (⟨trouble, pieces.map .accepted ++ [last]⟩ : Writer).drains = [last].count .drained := by
  have hnone : (pieces.map Call.accepted).count .drained = 0 := by simp [List.count_eq_zero]
  show (pieces.map Call.accepted ++ [last]).count .drained = [last].count .drained
  rw [List.count_append, hnone, Nat.zero_add]

/-! ### One piece -/

theorem write_of_ne (h : ∀ n f, w.trouble = some (.write n f) → w.accepted.length ≠ n) :
    w.write piece = (w.after [.accepted piece], none) := by
  unfold write
  split
  · next n f htrouble => rw [if_neg (h n f htrouble)]
  · rfl

theorem write_of_trouble (h : w.trouble = some (.write w.accepted.length f)) :
    w.write piece = (w.after [.failed piece], some (.fault f)) := by
  rw [write, h]
  exact if_pos rfl

/-! ### Pieces in turn -/

theorem writeAll_append (w : Writer) (first others : List Bytes) :
    w.writeAll (first ++ others) = (w.writeAll first).andThen (writeAll · others) := by
  induction first generalizing w with
  | nil => rfl
  | cons piece rest ih =>
    rw [List.cons_append, writeAll, writeAll]
    rcases w.write piece with ⟨t, _ | why⟩
    · exact ih t
    · rfl

/-- A writer that does not fail at any of the pieces accepts all of them, and nothing else is asked
    of it. -/
theorem writeAll_of_le
    (h : ∀ n f, w.trouble = some (.write n f) → w.accepted.length + pieces.length ≤ n) :
    w.writeAll pieces = (w.after (pieces.map .accepted), none) := by
  induction pieces generalizing w with
  | nil => simp [writeAll, after]
  | cons piece rest ih =>
    have hlater : ∀ n f, w.trouble = some (.write n f) →
        w.accepted.length + 1 + rest.length ≤ n := by
      intro n f htrouble
      have hle := h n f htrouble
      rw [List.length_cons] at hle
      omega
    have hfirst : w.write piece = (w.after [.accepted piece], none) := by
      refine write_of_ne fun n f htrouble => ?_
      have hle := hlater n f htrouble
      omega
    rw [writeAll, hfirst, Attempt.andThen_none, ih (by simpa [Call.piece?] using hlater),
      after_after]
    rfl

/-- A writer that fails at one of the pieces accepted those in front of it, and is given none of
    those behind it. -/
theorem writeAll_of_lt (htrouble : w.trouble = some (.write (w.accepted.length + n) f))
    (hn : n < pieces.length) :
    w.writeAll pieces =
      (w.after ((pieces.take n).map .accepted ++ [.failed pieces[n]]), some (.fault f)) := by
  have hsplit : pieces.take n ++ pieces[n] :: pieces.drop (n + 1) = pieces := by
    rw [← List.drop_eq_getElem_cons hn, List.take_append_drop]
  have hlength : (pieces.take n).length = n := List.length_take_of_le (Nat.le_of_lt hn)
  have hfront : w.writeAll (pieces.take n) = (w.after ((pieces.take n).map .accepted), none) := by
    refine writeAll_of_le fun m g hm => ?_
    rw [htrouble] at hm
    cases hm
    exact Nat.le_of_eq (congrArg (w.accepted.length + ·) hlength)
  have hfailed : (w.after ((pieces.take n).map .accepted)).write pieces[n] =
      ((w.after ((pieces.take n).map .accepted)).after [.failed pieces[n]], some (.fault f)) := by
    refine write_of_trouble ?_
    rw [trouble_after, accepted_after, filterMap_piece?_accepted, List.length_append, hlength]
    exact htrouble
  calc w.writeAll pieces
    _ = w.writeAll (pieces.take n ++ pieces[n] :: pieces.drop (n + 1)) := by rw [hsplit]
    _ = (w.writeAll (pieces.take n)).andThen (writeAll · (pieces[n] :: pieces.drop (n + 1))) :=
      writeAll_append w _ _
    _ = _ := by rw [hfront, Attempt.andThen_none, writeAll, hfailed, Attempt.andThen_some,
      after_after]

/-! ### A drain -/

theorem drain_fst (w : Writer) : w.drain.1 = w.after [.drained] := by
  unfold drain
  split <;> rfl

theorem drain_snd_of_trouble (h : w.trouble = some (.drain f)) : w.drain.2 = some (.fault f) := by
  rw [drain, h]

theorem drain_snd_of_ne (h : ∀ f, w.trouble ≠ some (.drain f)) : w.drain.2 = none := by
  unfold drain
  split
  · next f htrouble => exact absurd htrouble (h f)
  · rfl

/-! ### A request -/

theorem handOver_eq (w : Writer) (number : Nat) (r : Request) :
    w.handOver (.request number r) =
      ([.writing r.command.text r.size], (w.writeAll (Wire.chunks r)).andThen drain) := rfl

/-- Only a request can be handed over. -/
theorem handOver_of_not_request {v : Value} (h : ∀ number r, v ≠ .request number r) (w : Writer) :
    w.handOver v = ([], w, some (.unsupported v.kind)) := by
  cases v with
  | request number r => exact absurd rfl (h number r)
  | _ => rfl

end CommandWire.Writer
