import CommandWire.Proofs.Stream.Delivery
import CommandWire.Wire.Read

/-! What a request that could not be sent leaves in the buffer.

    A request is written piece by piece, and every piece in front of the one that fails has been
    accepted. Nobody takes an accepted piece back, so it stays in the buffer also if the sink has not
    seen a byte of the request:

        pieces     header   argument   argument   argument
        written    |---- accepted ----|   fails
        buffer     what waited before, or nothing, and then the accepted pieces

    Only a request whose very first piece fails leaves nothing behind. -/

namespace CommandWire.Stream

variable {s t : Stream} {why : Failure}

/-- Since an earlier state of a stream the sink took nothing but what waited then. -/
def OnlyEarlier (s t : Stream) : Prop := t.sink.content <+: s.sink.content ++ s.pending

/-- Just these bytes wait in a stream on top of what waited in an earlier state of it. -/
inductive Left (s : Stream) (own : Bytes) (t : Stream) : Prop where
  | behind (pending : t.pending = s.pending ++ own)
  | alone (content : t.sink.content = s.sink.content ++ s.pending) (pending : t.pending = own)

theorem more_eq_nil {had more : Bytes} (h : had ++ more <+: had) : more = [] := by
  have hle := h.length_le
  rw [List.length_append] at hle
  exact List.eq_nil_of_length_eq_zero (by omega)

/-! ### One piece -/

/-- The sink keeps what it has; what it gets is what waits and then the bytes of the action. -/
theorem Effect.bounds {a : Action} {outcome : Attempt Stream} (h : Effect s a outcome) :
    s.sink.content <+: outcome.1.sink.content ∧
      outcome.1.sink.content <+: s.sink.content ++ s.pending ++ a.data := by
  cases h with
  | idle lost content pending => simp [content]
  | queued fits content pending => simp [content]
  | torn split left content pending => simp [content, split]
  | spilled split left content pending => simp [content, split]
  | emptied kept split fits content pending => simp [content, split]

theorem moves_of_write {data : Bytes} (h : s.write data = (t, none)) :
    t.sink.content ++ t.pending = s.sink.content ++ s.pending ++ data := by
  have heffect := effect_write s data
  rw [h] at heffect
  exact heffect.moves rfl

/-- A piece that was written while the sink took nothing of it waits. -/
theorem left_of_write {data : Bytes} (hdata : data ≠ []) (h : s.write data = (t, none))
    (hearlier : OnlyEarlier s t) : Left s data t := by
  have heffect := effect_write s data
  rw [h] at heffect
  cases heffect with
  | idle lost content pending =>
    rcases lost with hnil | hwhy
    · exact absurd hnil hdata
    · exact absurd rfl hwhy
  | queued fits content pending => exact .behind pending
  | @emptied _ _ direct queued kept split fits content pending =>
    rw [OnlyEarlier, content] at hearlier
    obtain rfl := more_eq_nil hearlier
    exact .alone (by simpa using content) (by rw [pending]; exact split.symm)

/-- A piece that could not be written, and of which the sink took nothing, is gone. -/
theorem left_nil_of_write {data : Bytes} (hdata : data ≠ []) (h : s.write data = (t, some why))
    (hearlier : OnlyEarlier s t) : Left s [] t := by
  have heffect := effect_write s data
  rw [h] at heffect
  cases heffect with
  | idle lost content pending => exact .behind (by simpa using pending)
  | torn split left content pending => exact .behind (by simpa using pending)
  | @spilled _ _ taken rest split left content pending =>
    rw [OnlyEarlier, content] at hearlier
    obtain rfl := more_eq_nil hearlier
    exact .alone (by simpa using content) pending
  | emptied kept split fits content pending =>
    rcases kept with hnil | hwhy
    · exact absurd hnil hdata
    · cases hwhy

/-! ### Pieces in turn -/

theorem writeAll_bounds (s : Stream) (pieces : List Bytes) :
    s.sink.content <+: (s.writeAll pieces).1.sink.content ∧
      (s.writeAll pieces).1.sink.content <+: s.sink.content ++ s.pending ++ pieces.flatten := by
  induction pieces generalizing s with
  | nil => simp [writeAll]
  | cons data rest ih =>
    obtain ⟨hkeeps, hgets⟩ := (effect_write s data).bounds
    rw [writeAll, List.flatten_cons, ← List.append_assoc]
    cases hwrite : s.write data with
    | mk u why =>
      rw [hwrite] at hkeeps hgets
      cases why with
      | some why => exact ⟨hkeeps, hgets.trans (List.prefix_append _ _)⟩
      | none =>
        obtain ⟨hlater, hlast⟩ := ih u
        rw [moves_of_write hwrite] at hlast
        exact ⟨hkeeps.trans hlater, hlast⟩

/-- What waits behind a written piece waits behind what was there before it. -/
theorem Left.cons {u : Stream} {data own : Bytes} (hdata : data ≠ [])
    (hwritten : s.write data = (u, none)) (hgrows : u.sink.content <+: t.sink.content)
    (hearlier : OnlyEarlier s t) (h : Left u own t) : Left s (data ++ own) t := by
  cases h with
  | alone content pending =>
    -- the sink would have the piece as well
    rw [OnlyEarlier, content, moves_of_write hwritten] at hearlier
    exact absurd (more_eq_nil hearlier) hdata
  | behind pending =>
    cases left_of_write hdata hwritten (hgrows.trans hearlier) with
    | behind waiting => exact .behind (by rw [pending, waiting, List.append_assoc])
    | alone content waiting =>
      have hsame : t.sink.content = s.sink.content ++ s.pending :=
        hearlier.eq_of_length_le (by rw [← content]; exact hgrows.length_le)
      exact .alone hsame (by rw [pending, waiting])

/-- Pieces that fail with nothing of them in the sink leave the ones in front of the failing one. -/
theorem left_of_writeAll {pieces : List Bytes} (hpieces : ∀ piece ∈ pieces, piece ≠ [])
    (hfail : s.writeAll pieces = (t, some why)) (hearlier : OnlyEarlier s t) :
    ∃ accepted failed rest u, pieces = accepted ++ failed :: rest ∧
      s.writeAll accepted = (u, none) ∧ u.write failed = (t, some why) ∧
      Left s accepted.flatten t := by
  induction pieces generalizing s with
  | nil => cases hfail
  | cons data rest ih =>
    have hdata := hpieces data List.mem_cons_self
    rw [writeAll] at hfail
    cases hwrite : s.write data with
    | mk u failure =>
      rw [hwrite] at hfail
      cases failure with
      | some failure =>
        cases hfail
        exact ⟨[], data, rest, s, rfl, rfl, hwrite, left_nil_of_write hdata hwrite hearlier⟩
      | none =>
        rw [Attempt.andThen_none] at hfail
        have hgrows : u.sink.content <+: t.sink.content := by
          simpa [hfail] using (writeAll_bounds u rest).1
        have hlater : OnlyEarlier u t := by
          rw [OnlyEarlier, moves_of_write hwrite]
          exact hearlier.trans (List.prefix_append _ _)
        obtain ⟨accepted, failed, after, v, rfl, haccepted, hfailed, hleft⟩ :=
          ih (fun piece hmem => hpieces piece (List.mem_cons_of_mem _ hmem)) hfail hlater
        refine ⟨data :: accepted, failed, after, v, rfl, ?_, hfailed, ?_⟩
        · rw [writeAll, hwrite, Attempt.andThen_none, haccepted]
        · exact hleft.cons hdata hwrite hgrows hearlier

/-! ### Requests -/

/-- A request that could not be sent has handed the sink what waited and then a first part of its own
    bytes. Where that part is empty, the pieces in front of the failing one wait in the buffer, and
    nothing of the request does exactly if its header could not be written. -/
theorem failed_send_leaves_accepted {s t : Stream} {why : Failure} {number : Nat} {r : Request}
    (hfail : s.send (.request number r) = (t, some why)) :
    t.sink.content <+: s.sink.content ++ s.pending ++ Wire.encode r ∧
      (OnlyEarlier s t →
        let begun := (s.act (.note r.note)).1
        ∃ accepted failed rest u, Wire.chunks r = accepted ++ failed :: rest ∧
          begun.writeAll accepted = (u, none) ∧ u.write failed = (t, some why) ∧
          Left s accepted.flatten t ∧
          (accepted.flatten = [] ↔ (begun.write (Wire.header r.size)).2 ≠ none)) := by
  have hwrites : (s.act (.note r.note)).1.writeAll (Wire.chunks r) = (t, some why) := hfail
  have hbounds := (writeAll_bounds (s.act (.note r.note)).1 (Wire.chunks r)).2
  rw [hwrites] at hbounds
  refine ⟨hbounds, ?_⟩
  intro hearlier begun
  obtain ⟨accepted, failed, rest, u, hchunks, haccepted, hfailed, hleft⟩ :=
    left_of_writeAll (fun _ => Wire.ne_nil_of_mem_chunks) hwrites hearlier
  have hleft : Left s accepted.flatten t := by
    cases hleft with
    | behind pending => exact .behind pending
    | alone content pending => exact .alone content pending
  refine ⟨accepted, failed, rest, u, hchunks, haccepted, hfailed, hleft, ?_⟩
  cases accepted with
  | nil =>
    obtain ⟨rfl, -⟩ := List.cons.inj hchunks
    cases haccepted
    simp [begun, hfailed]
  | cons piece others =>
    obtain ⟨rfl, -⟩ := List.cons.inj hchunks
    have hheader : (begun.write (Wire.header r.size)).2 = none := by
      rw [writeAll] at haccepted
      generalize begun.write (Wire.header r.size) = result at haccepted
      obtain ⟨v, failure⟩ := result
      cases failure with
      | none => rfl
      | some failure => cases haccepted
    have hne : Wire.header r.size ≠ [] := List.cons_ne_nil _ _
    simp [hheader, hne]

/-- Two bytes wait in front of a request, the sink takes one of them and then would have to wait: the
    header of the request stays in the buffer behind both. -/
theorem failed_send_leaves_accepted_header :
    ∃ s t : Stream, ∃ why : Failure,
      s.pending = [1, 2] ∧ s.send (.request 0 ⟨.command .ping, []⟩) = (t, some why) ∧
        OnlyEarlier s t ∧ t.pending = [1, 2] ++ Wire.header 1 ∧
        ∃ accepted failed rest, Wire.chunks ⟨.command .ping, []⟩ = accepted ++ failed :: rest ∧
          Left s accepted.flatten t := by
  let s : Stream := ⟨.whole 8, [1, 2], false, .ofScript [.takes 1, .blocks] [], []⟩
  have hfail : s.send (.request 0 ⟨.command .ping, []⟩) =
      ((s.send (.request 0 ⟨.command .ping, []⟩)).1, some (.blocked 5)) := by decide +kernel
  have hearlier : OnlyEarlier s (s.send (.request 0 ⟨.command .ping, []⟩)).1 := by
    unfold OnlyEarlier
    decide +kernel
  have hpending : (s.send (.request 0 ⟨.command .ping, []⟩)).1.pending = [1, 2] ++ Wire.header 1 := by
    decide +kernel
  obtain ⟨accepted, failed, rest, u, hchunks, -, -, hleft, -⟩ :=
    (failed_send_leaves_accepted hfail).2 hearlier
  exact ⟨s, _, _, rfl, hfail, hearlier, hpending, accepted, failed, rest, hchunks, hleft⟩

/-- A sink that fails once, before it takes anything: the header of the request that could not be
    sent goes out in front of the next request, and what the sink has then is no request. -/
theorem header_glued_after_failed_send :
    ∃ s₀, start (some (.ofScript [.raises ⟨"OSError", .inputOutput, "x"⟩] [])) (some (.int 8)) =
        .ok s₀ ∧
      let ping : Value := .request 0 ⟨.command .ping, []⟩
      let t := (s₀.send ping).1
      (s₀.send ping).2 = some (.fault ⟨"OSError", .inputOutput, "x"⟩) ∧
        s₀.pending = [] ∧ t.sink.content = [] ∧ t.closed = false ∧
        t.pending = Wire.header 1 ∧
        (t.performAll [.send ping, .flush]).sink.content =
          Wire.header 1 ++ Wire.encode ⟨.command .ping, []⟩ ∧
        Wire.read (t.performAll [.send ping, .flush]).sink.content = none := by
  refine ⟨_, start_of_pos (by decide) _, ?_⟩
  decide +kernel

end CommandWire.Stream
