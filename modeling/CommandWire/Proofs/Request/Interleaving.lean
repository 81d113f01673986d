import CommandWire.Proofs.Number.Decimal
import CommandWire.Proofs.Request.Shared

/-! Cursors over a request that grows while they read it.

    What a cursor gives depends on the request and on its own moves only:

        first move         the header, with the size as it is then (for pieces on the wire)
        later moves        command, param 0, param 1, …, also those appended meanwhile
        nothing is left    stopped, for good

    The header is fixed long before the arguments are read. So the pieces that a cursor gave until
    it stopped make up the request as it is then only if nothing was appended since its first
    move. -/

namespace CommandWire

/-! ### What a cursor has ahead of it while the request grows -/

namespace Cursor

/-- Everything that a cursor gives over a request, if the header counts `size` arguments. -/
def Opening.items (size : Nat) (r : Request) : Opening → List Bytes
  | .chunks => Wire.header size :: r.arguments.map fun a => Wire.bulk a.raw
  | .arguments true => r.arguments.map Argument.raw
  | .arguments false => r.params.map Argument.raw

/-- The items that a cursor has ahead, if the header counts `size` arguments. -/
def upcoming (size : Nat) (r : Request) : Cursor → List Bytes
  | .header => Wire.header size :: r.arguments.map Form.bulk.write
  | c => c.ahead r

theorem upcoming_cursor (o : Opening) (size : Nat) (r : Request) :
    o.cursor.upcoming size r = o.items size r := by
  cases o with
  | chunks => rfl
  | arguments withCommand => cases withCommand <;> rfl

variable {r : Request} {c c' : Cursor}

/-- Moving on takes the first item off those ahead, also off those ahead of it later. -/
theorem upcoming_of_nextIn_some {item : Bytes} {size : Nat} (h : nextIn r c = (c', some item))
    (hsize : c = .header → r.size = size) (as : List Argument) :
    c.upcoming size (r.pushAll as) = item :: c'.upcoming size (r.pushAll as) ∧ c' ≠ .header := by
  cases c with
  | header =>
    cases h
    rw [hsize rfl]
    exact ⟨rfl, by simp⟩
  | command form =>
    cases h
    exact ⟨rfl, by simp⟩
  | param form i =>
    rw [nextIn] at h
    split at h
    · next a ha =>
      cases h
      obtain ⟨hi, rfl⟩ := List.getElem?_eq_some_iff.mp ha
      have hdrop : (r.params ++ as).drop i = r.params[i] :: (r.params ++ as).drop (i + 1) := by
        rw [List.drop_eq_getElem_cons (by rw [List.length_append]; omega),
          List.getElem_append_left hi]
      refine ⟨?_, by simp⟩
      show ((r.params ++ as).drop i).map form.write = _
      rw [hdrop]
      rfl
    · cases h
  | stopped => cases h

/-- A cursor stops when there is nothing ahead, whatever the header counts. -/
theorem upcoming_of_nextIn_none (h : nextIn r c = (c', none)) (size : Nat) :
    c.upcoming size r = [] ∧ c' = .stopped := by
  cases c with
  | header | command => cases h
  | param form i =>
    refine ⟨ahead_of_nextIn_none h, ?_⟩
    rw [nextIn] at h
    split at h
    · cases h
    · exact (Prod.mk.inj h).1.symm
  | stopped => exact ⟨rfl, (Prod.mk.inj h).1.symm⟩

end Cursor

namespace Shared

/-! ### The moves of one cursor -/

/-- What the moves of a cursor come to: first items, then stops and nothing else. The items are
    those that the cursor had ahead, up to some point, and up to the end if it stopped. -/
structure ReadOn (r : Request) (later : List Request.Edit) (c : Cursor) (moves : List Move)
    (items : List Bytes) (stops : Nat) : Prop where
  replies : moves.map Move.reply =
    items.map (fun item => .ok (some item)) ++ List.replicate stops (.ok none)
  in_order : ∀ size, (c = .header → ∀ m ∈ moves.head?, (m.seen r).size = size) →
    items <+: c.upcoming size (r.editAll later)
  to_the_end : ∀ size, (c = .header → ∀ m ∈ moves.head?, (m.seen r).size = size) →
    ∀ stop ∈ moves[items.length]?, items = c.upcoming size (stop.seen r)

variable {s : Shared} {r : Request} {i : Nat} {c c' : Cursor} {past later : List Request.Edit}
  {events : List Event} {rest : List Move} {items : List Bytes} {stops : Nat}

/-- A move that gives an item, before moves that read on from there. -/
theorem ReadOn.cons_item {item : Bytes} (h : c.nextIn (r.editAll past) = (c', some item))
    (hpast : past <+: later) (hrest : ∀ m ∈ rest, past <+: m.past)
    (hread : ReadOn r later c' rest items stops) :
    ReadOn r later c (⟨past, .ok (some item)⟩ :: rest) (item :: items) stops where
  replies := by rw [List.map_cons, hread.replies]; rfl
  in_order := by
    intro size hsize
    obtain ⟨as, has⟩ := Request.editAll_of_prefix hpast r
    obtain ⟨hahead, hc'⟩ :=
      Cursor.upcoming_of_nextIn_some h (fun hc => hsize hc _ rfl) as
    rw [has, hahead, ← has]
    exact List.cons_prefix_cons.mpr ⟨rfl, hread.in_order size fun hheader => absurd hheader hc'⟩
  to_the_end := by
    intro size hsize stop hstop
    rw [List.length_cons, List.getElem?_cons_succ] at hstop
    obtain ⟨as, has⟩ := Request.editAll_of_prefix (hrest stop (List.mem_of_getElem? hstop)) r
    obtain ⟨hahead, hc'⟩ :=
      Cursor.upcoming_of_nextIn_some h (fun hc => hsize hc _ rfl) as
    rw [Move.seen, has, hahead, ← has]
    exact congrArg (item :: ·)
      (hread.to_the_end size (fun hheader => absurd hheader hc') stop hstop)

/-- A move that stops, before moves that read on from there, which stop as well. -/
theorem ReadOn.cons_stop (h : c.nextIn (r.editAll past) = (c', none))
    (hread : ReadOn r later c' rest items stops) :
    ReadOn r later c (⟨past, .ok none⟩ :: rest) [] (stops + 1) := by
  obtain ⟨-, rfl⟩ := Cursor.upcoming_of_nextIn_none h 0
  have hnil : items = [] := by
    simpa [Cursor.upcoming, Cursor.ahead] using hread.in_order 0 (fun hc => by cases hc)
  subst hnil
  refine ⟨?_, fun _ _ => List.nil_prefix, ?_⟩
  · rw [List.map_cons, hread.replies, List.replicate_succ]
    rfl
  · intro size _ stop hstop
    obtain rfl := Option.some.inj hstop
    exact (Cursor.upcoming_of_nextIn_none h size).1.symm

theorem readOn (hc : (s.roster events)[i]? = some c) (hr : s.request = r.editAll past) :
    ∃ items stops, ReadOn r (past ++ events.flatMap Event.edits) c (s.moves i past events)
      items stops := by
  induction events generalizing s past c with
  | nil => exact ⟨[], 0, rfl, fun _ _ => List.nil_prefix, fun _ _ _ h => by cases h⟩
  | cons e rest ih =>
    cases e with
    | edit e =>
      have hnext : (s.step (.edit e)).request = r.editAll (past ++ [e]) := by
        rw [Request.editAll_append, ← hr]
        rfl
      obtain ⟨items, stops, h⟩ := ih (s := s.step (.edit e)) hc hnext
      rw [List.append_assoc] at h
      exact ⟨items, stops, h⟩
    | attach o =>
      rw [moves_attach]
      rw [← roster_attach] at hc
      exact ih hc hr
    | next j =>
      rcases eq_or_ne j i with rfl | hj
      · cases hown : s.cursors[j]? with
        | none =>
          rw [moves_closed hown]
          rw [← roster_closed hown] at hc
          exact ih hc hr
        | some own =>
          obtain rfl := Option.some.inj ((roster_of_open hown _).symm.trans hc)
          obtain ⟨items, stops, hread⟩ := ih (roster_of_open (cursors_step_own hown) rest) hr
          rw [moves_own hown, hr]
          rw [hr] at hread
          rcases hnext : own.nextIn (r.editAll past) with ⟨c', item | item⟩
          · rw [hnext] at hread
            exact ⟨[], stops + 1, hread.cons_stop hnext⟩
          · rw [hnext] at hread
            exact ⟨item :: items, stops, hread.cons_item hnext (List.prefix_append _ _)
              fun m hm => past_prefix hm⟩
      · rw [moves_other hj]
        exact ih ((roster_other hj rest).trans hc) hr

theorem ReadOn.filterMap_item? {moves : List Move} (hread : ReadOn r later c moves items stops) :
    moves.filterMap Move.item? = items := by
  have hmap : moves.filterMap Move.item? =
      (moves.map Move.reply).filterMap fun reply => reply.toOption.join := by
    rw [List.filterMap_map]
    rfl
  rw [hmap, hread.replies]
  simp [List.filterMap_append, List.filterMap_map, Except.toOption]

end Shared

/-! ### What a cursor gives in the end -/

theorem Wire.header_inj {m n : Int} : Wire.header m = Wire.header n ↔ m = n := by
  rw [Wire.header, Wire.header, List.cons.injEq, List.append_left_inj, Decimal.intBytes_inj]
  exact and_iff_right rfl

/-- The pieces of a request behind a header that counts `size` arguments are the request on the wire
    exactly if it has as many. -/
theorem Cursor.flatten_items_chunks (size : Nat) (r : Request) :
    (Opening.chunks.items size r).flatten = Wire.encode r ↔ size = r.size := by
  rw [Opening.items, Wire.encode, Wire.chunks, List.flatten_cons, List.flatten_cons,
    List.append_left_inj, Wire.header_inj, Int.natCast_inj]

namespace Shared

/-- However the moves of many cursors and the changes of the request under them come one after
    another, a cursor gives what it would give without the moves of the others: items, and then
    stops and nothing else. The items are, up to some point, the header with the size as it was at
    the first move (for pieces on the wire), the command where it is asked for, and the parameters
    of the request in order. Where the cursor stopped they are all of that, for the request as it
    was at the stop. So pieces that were read to a stop make up the request as it was at the stop
    exactly if the changes between the first move and the stop added nothing. -/
theorem items_until_stop (number : Nat) (r : Request) (events : List Event) {i : Nat}
    {o : Cursor.Opening} (hopened : (events.flatMap Event.openings)[i]? = some o) :
    let moves := (start number r).moves i [] events
    let items := moves.filterMap Move.item?
    moves = (start number r).moves i [] (events.filter (Event.concerns i)) ∧
    moves.map Move.reply = items.map (fun item => .ok (some item)) ++
      List.replicate (moves.length - items.length) (.ok none) ∧
    ∀ first, moves.head? = some first →
      items <+: o.items (first.seen r).size (r.editAll (events.flatMap Event.edits)) ∧
      ∀ stop, moves[items.length]? = some stop →
        items = o.items (first.seen r).size (stop.seen r) ∧
        ∃ between, stop.past = first.past ++ between ∧
          (o = .chunks → (items.flatten = Wire.encode (stop.seen r) ↔
            between.flatMap Request.Edit.added = [])) := by
  intro moves items
  have halike : Alike i (start number r) (start number r) := ⟨rfl, rfl, rfl, rfl⟩
  obtain ⟨given, stops, hread⟩ :
      ∃ given stops, ReadOn r ([] ++ events.flatMap Event.edits) o.cursor moves given stops :=
    readOn (List.getElem?_map.trans (congrArg _ hopened)) rfl
  obtain rfl : items = given := hread.filterMap_item?
  have hstops : moves.length - items.length = stops := by
    have hlength := congrArg List.length hread.replies
    simp only [List.length_map, List.length_append, List.length_replicate] at hlength
    omega
  refine ⟨halike.moves_filter events, hstops ▸ hread.replies, ?_⟩
  intro first hfirst
  have hsize : o.cursor = .header → ∀ m ∈ moves.head?, (m.seen r).size = (first.seen r).size := by
    rintro - m hm
    rw [hfirst] at hm
    rw [Option.some.inj hm]
  refine ⟨?_, ?_⟩
  · rw [← Cursor.upcoming_cursor]
    exact hread.in_order _ hsize
  · intro stop hstop
    have hall : items = o.items (first.seen r).size (stop.seen r) := by
      rw [← Cursor.upcoming_cursor]
      exact hread.to_the_end _ hsize stop hstop
    obtain ⟨between, hbetween⟩ := past_head_prefix hfirst (List.mem_of_getElem? hstop)
    refine ⟨hall, between, hbetween.symm, ?_⟩
    rintro rfl
    have hgrown : stop.seen r = (first.seen r).pushAll (between.flatMap Request.Edit.added) := by
      rw [Move.seen, ← hbetween, Request.editAll_append, Request.editAll_eq _ between]
      rfl
    rw [hall, Cursor.flatten_items_chunks, hgrown, ← List.length_eq_zero_iff]
    simp [Request.size, Request.pushAll]

/-- A parameter that comes between the header and the stop is read as well, but not counted, so the
    pieces are no request; one that comes behind the stop is not read, and neither is a refused
    one. The other cursor is ahead of its first move still when the first one has stopped. -/
theorem items_until_stop_grown :
    let events : List Event := [.attach .chunks, .attach (.arguments true), .next 0,
      .edit (.add (.text "x")), .next 0, .edit (.add .none), .next 0, .next 0,
      .edit (.append (.argument (.keyword .nx))), .next 1, .next 0]
    let moves := (start 0 (.ofCommand (.command .ping))).moves 0 [] events
    let items := moves.filterMap Move.item?
    (events.flatMap Event.openings)[0]? = some .chunks ∧
      moves.map Move.reply = items.map (fun item => .ok (some item)) ++ [.ok none, .ok none] ∧
      items = [Wire.header 1, Wire.bulk (ascii "PING"), Wire.bulk (ascii "x")] ∧
      items.flatten ≠ Wire.encode ⟨.command .ping, [.blob (ascii "x")]⟩ := by
  intro events moves items
  have hopened : (events.flatMap Event.openings)[0]? = some .chunks := rfl
  obtain ⟨-, hreplies, hread⟩ := items_until_stop 0 (.ofCommand (.command .ping)) events hopened
  have hlength : items.length = 3 := by decide +kernel
  have hstops : moves.length - items.length = 2 := by decide +kernel
  obtain ⟨-, hstop⟩ := hread ⟨[], .ok (some (Wire.header 1))⟩ rfl
  obtain ⟨-, between, hbetween, hwhole⟩ :=
    hstop ⟨[.add (.text "x"), .add .none], .ok none⟩ (hlength ▸ rfl)
  refine ⟨hopened, hreplies.trans (hstops ▸ rfl), by decide +kernel, ?_⟩
  intro hsame
  have hnothing := (hwhole rfl).mp hsame
  rw [List.nil_append] at hbetween
  subst hbetween
  cases hnothing

end Shared
end CommandWire
