import Mathlib.Logic.Basic
import CommandWire.Proofs.Request.Growth
import CommandWire.Request.Cursor

/-! One request and the cursors that are open over it.

    Changes of the request, openings of cursors and moves of cursors come in any order. An event
    leaves alone what it is not about:

                        request     cursor i      other cursors
        edit            grows       stays         stay
        attach          stays       stays         stay, and a new one behind them
        next i          stays       moves on      stay

    So whoever follows one cursor need not know what the others do. -/

namespace CommandWire

namespace Cursor

/-- The ways of opening a cursor: over the pieces on the wire, or over the arguments, with or
    without the command. -/
inductive Opening where
  | chunks
  | arguments (withCommand : Bool)

/-- The cursor that was opened. -/
def Opening.cursor : Opening → Cursor
  | .chunks => Cursor.chunks
  | .arguments withCommand => Cursor.arguments withCommand

theorem next_request (c : Cursor) (number : Nat) (r : Request) :
    c.next (.request number r) = ((nextIn r c).1, .ok (nextIn r c).2) := by
  cases c <;> rfl

end Cursor

/-! ### One request, many cursors -/

/-- A request, known by its number, and the cursors that are open over it. -/
structure Shared where
  number : Nat
  request : Request
  cursors : List Cursor

namespace Shared

/-- What can happen: a change of the request, a cursor that is opened, and a cursor that is moved
    on. Cursors are counted in the order in which they were opened. -/
inductive Event where
  | edit (e : Request.Edit)
  | attach (o : Cursor.Opening)
  | next (i : Nat)

/-- The change that an event is. -/
def Event.edits : Event → List Request.Edit
  | .edit e => [e]
  | .attach _ => []
  | .next _ => []

/-- The opening that an event is. -/
def Event.openings : Event → List Cursor.Opening
  | .edit _ => []
  | .attach o => [o]
  | .next _ => []

/-- Whether an event is anything but a move of another cursor. -/
def Event.concerns (i : Nat) : Event → Bool
  | .next j => j == i
  | _ => true

/-- A move of a cursor: the changes that were made before it, and what came of it. -/
structure Move where
  past : List Request.Edit
  reply : Except Failure (Option Bytes)

/-- The item that a move gave, if it gave one. -/
def Move.item? (m : Move) : Option Bytes := m.reply.toOption.join

/-- The request at a move, if it was `r` at first. -/
def Move.seen (m : Move) (r : Request) : Request := r.editAll m.past

/-- A request over which nothing is open yet. -/
def start (number : Nat) (r : Request) : Shared := ⟨number, r, []⟩

/-- The request as a cursor finds it. -/
def value (s : Shared) : Value := .request s.number s.request

/-- One event. -/
def step (s : Shared) : Event → Shared
  | .edit e => { s with request := (s.request.edit e).1 }
  | .attach o => { s with cursors := s.cursors ++ [o.cursor] }
  | .next i => { s with cursors := s.cursors.modify i fun c => (c.next s.value).1 }

/-- The moves of one cursor at one event. -/
def heard (i : Nat) (s : Shared) (past : List Request.Edit) : Event → List Move
  | .next j =>
    if j = i then (s.cursors[i]?.map fun c => ⟨past, (c.next s.value).2⟩).toList else []
  | .edit _ => []
  | .attach _ => []

/-- The moves of one cursor in a run of events. -/
def moves (i : Nat) (s : Shared) (past : List Request.Edit) : List Event → List Move
  | [] => []
  | e :: rest => s.heard i past e ++ (s.step e).moves i (past ++ e.edits) rest

/-- The cursors that are open, and behind them those that events will open. -/
def roster (s : Shared) (events : List Event) : List Cursor :=
  s.cursors ++ (events.flatMap Event.openings).map (·.cursor)

variable {s t : Shared} {i : Nat} {past : List Request.Edit} {c : Cursor}

theorem moves_edit (e : Request.Edit) (rest : List Event) :
    s.moves i past (.edit e :: rest) = (s.step (.edit e)).moves i (past ++ [e]) rest := rfl

theorem moves_attach (o : Cursor.Opening) (rest : List Event) :
    s.moves i past (.attach o :: rest) = (s.step (.attach o)).moves i past rest := by
  rw [moves, Event.edits, List.append_nil]
  rfl

theorem moves_other {j : Nat} (h : j ≠ i) (rest : List Event) :
    s.moves i past (.next j :: rest) = (s.step (.next j)).moves i past rest := by
  rw [moves, heard, if_neg h, Event.edits, List.append_nil, List.nil_append]

theorem moves_closed (h : s.cursors[i]? = none) (rest : List Event) :
    s.moves i past (.next i :: rest) = (s.step (.next i)).moves i past rest := by
  rw [moves, heard, if_pos rfl, h, Event.edits, List.append_nil]
  rfl

theorem moves_own (h : s.cursors[i]? = some c) (rest : List Event) :
    s.moves i past (.next i :: rest) =
      ⟨past, .ok (c.nextIn s.request).2⟩ :: (s.step (.next i)).moves i past rest := by
  rw [moves, heard, if_pos rfl, h, Event.edits, List.append_nil, Option.map_some, value,
    Cursor.next_request]
  rfl

theorem cursors_step_other {j : Nat} (h : j ≠ i) :
    (s.step (.next j)).cursors[i]? = s.cursors[i]? := by
  simp [step, h]

theorem cursors_step_own (h : s.cursors[i]? = some c) :
    (s.step (.next i)).cursors[i]? = some (c.nextIn s.request).1 := by
  simp [step, h, value, Cursor.next_request]

theorem length_cursors_next (j : Nat) : (s.step (.next j)).cursors.length = s.cursors.length :=
  List.length_modify _ _ _

theorem roster_attach (o : Cursor.Opening) (rest : List Event) :
    (s.step (.attach o)).roster rest = s.roster (.attach o :: rest) := by
  simp [roster, step, Event.openings]

theorem roster_other {j : Nat} (h : j ≠ i) (rest : List Event) :
    ((s.step (.next j)).roster rest)[i]? = (s.roster (.next j :: rest))[i]? := by
  simp [roster, Event.openings, List.getElem?_append, length_cursors_next, cursors_step_other h]

theorem roster_closed (h : s.cursors[i]? = none) (rest : List Event) :
    (s.step (.next i)).roster rest = s.roster (.next i :: rest) := by
  have hlength := List.getElem?_eq_none_iff.mp h
  have hsame : (s.step (.next i)).cursors = s.cursors := List.modify_eq_self hlength
  simp [roster, Event.openings, hsame]

theorem roster_of_open (h : s.cursors[i]? = some c) (events : List Event) :
    (s.roster events)[i]? = some c := by
  obtain ⟨hi, -⟩ := List.getElem?_eq_some_iff.mp h
  rw [roster, List.getElem?_append_left hi, h]

/-! ### When a cursor is moved -/

theorem past_of_mem_heard {e : Event} {m : Move} (h : m ∈ s.heard i past e) : m.past = past := by
  cases e with
  | edit e => cases h
  | attach o => cases h
  | next j =>
    rw [heard] at h
    split at h
    · obtain ⟨c, -, rfl⟩ := Option.map_eq_some_iff.mp (Option.mem_toList.mp h)
      rfl
    · cases h

/-- The changes before a move are those before the run and some of the run. -/
theorem past_prefix {events : List Event} {m : Move} (h : m ∈ s.moves i past events) :
    past <+: m.past := by
  induction events generalizing s past with
  | nil => cases h
  | cons e rest ih =>
    rw [moves, List.mem_append] at h
    rcases h with hnow | hlater
    · exact past_of_mem_heard hnow ▸ List.prefix_refl _
    · exact (List.prefix_append _ _).trans (ih hlater)

/-- No move comes before the first one. -/
theorem past_head_prefix {events : List Event} {first m : Move}
    (hfirst : (s.moves i past events).head? = some first) (h : m ∈ s.moves i past events) :
    first.past <+: m.past := by
  induction events generalizing s past with
  | nil => cases h
  | cons e rest ih =>
    rcases hnow : s.heard i past e with _ | ⟨move, others⟩
    · rw [moves, hnow] at hfirst h
      exact ih hfirst h
    · have hpast : first.past = past := by
        rw [moves, hnow] at hfirst
        obtain rfl := Option.some.inj hfirst
        exact past_of_mem_heard (hnow ▸ List.mem_cons_self)
      rw [hpast]
      exact past_prefix h

/-! ### Cursors do not disturb each other -/

/-- Two states that a cursor cannot tell apart. -/
structure Alike (i : Nat) (s t : Shared) : Prop where
  number : s.number = t.number
  request : s.request = t.request
  opened : s.cursors.length = t.cursors.length
  own : s.cursors[i]? = t.cursors[i]?

theorem Alike.edit (h : Alike i s t) (e : Request.Edit) :
    Alike i (s.step (.edit e)) (t.step (.edit e)) where
  number := h.number
  request := by rw [step, step, h.request]
  opened := h.opened
  own := h.own

theorem Alike.attach (h : Alike i s t) (o : Cursor.Opening) :
    Alike i (s.step (.attach o)) (t.step (.attach o)) where
  number := h.number
  request := h.request
  opened := by simp [step, h.opened]
  own := by simp [step, List.getElem?_append, h.opened, h.own]

theorem Alike.next_own (h : Alike i s t) : Alike i (s.step (.next i)) (t.step (.next i)) where
  number := h.number
  request := h.request
  opened := by rw [length_cursors_next, length_cursors_next, h.opened]
  own := by simp [step, value, h.number, h.request, h.own]

theorem Alike.next_other (h : Alike i s t) {j : Nat} (hj : j ≠ i) :
    Alike i (s.step (.next j)) t where
  number := h.number
  request := h.request
  opened := (length_cursors_next j).trans h.opened
  own := (cursors_step_other hj).trans h.own

/-- Leaving out the moves of all others changes no move of a cursor. -/
theorem Alike.moves_filter (h : Alike i s t) (events : List Event) :
    s.moves i past events = t.moves i past (events.filter (Event.concerns i)) := by
  induction events generalizing s t past with
  | nil => rfl
  | cons e rest ih =>
    cases e with
    | edit e =>
      rw [List.filter_cons_of_pos rfl, moves_edit, moves_edit, ih (h.edit e)]
    | attach o =>
      rw [List.filter_cons_of_pos rfl, moves_attach, moves_attach, ih (h.attach o)]
    | next j =>
      rcases eq_or_ne j i with rfl | hj
      · have hnow : s.heard j past (.next j) = t.heard j past (.next j) := by
          rw [heard, heard, h.own, value, value, h.number, h.request]
        rw [List.filter_cons_of_pos (by simp [Event.concerns]), moves, moves, hnow,
          ih h.next_own]
      · rw [List.filter_cons_of_neg (by simp [Event.concerns, hj]), moves_other hj,
          ih (h.next_other hj)]

end Shared
end CommandWire
