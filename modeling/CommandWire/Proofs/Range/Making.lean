import Mathlib.Data.List.Basic
import CommandWire.Range.Build

/-! Where a range comes from: how it was made, and what the changes of it add up to.

    A maker checks both bounds and fixes what they are bounds of. Of the changes only two things are
    left in the end: whether any of them turned the range around, and the last window that was set,
    for a change that fails sets none. -/

namespace CommandWire.Range

/-- The ways of making a range from two bounds. -/
inductive Maker where | numbers | index | score | lex
  deriving DecidableEq

/-- Makes a range, if both bounds are accepted. -/
def Maker.make : Maker → Value → Value → Except Failure Range
  | .numbers => ofNumbers
  | .index => byIndex
  | .score => byScore
  | .lex => byLex

/-- What the bounds given to a maker become bounds of. -/
def Maker.mode : Maker → Value → Value → Mode
  | .numbers, min, max => if min.isFloat || max.isFloat then .score else .index
  | .index, _, _ => .index
  | .score, _, _ => .score
  | .lex, _, _ => .lex

/-- The bytes of a bound, if the mode has a way of writing it. -/
def boundBytes : Mode → Value → Except Failure Bytes
  | .index => Value.int64Bytes
  | .score => Value.floatBytes
  | .lex => Value.textBytes

theorem build_eq_ok_iff {mode : Mode} {written : Value → Except Failure Bytes} {min max : Value}
    {p : Range} : build mode written min max = .ok p ↔
      ∃ low high, written min = .ok low ∧ written max = .ok high ∧ p = ofBounds mode low high := by
  rw [build]
  cases written min with
  | error why => simp [bind, Except.bind]
  | ok low =>
    cases written max with
    | error why => simp [bind, Except.bind]
    | ok high => simp [bind, Except.bind, pure, Except.pure, eq_comm]

/-- Whatever the maker, it is the mode that writes the bounds. -/
theorem make_eq (m : Maker) (min max : Value) :
    m.make min max = build (m.mode min max) (boundBytes (m.mode min max)) min max := by
  cases m with
  | numbers =>
    rw [Maker.make, Maker.mode, ofNumbers]
    split
    · rfl
    · rfl
  | index | score | lex => rfl

/-! ### Changes -/

/-- Whether a change turns the range around. -/
def Edit.reverses : Edit → Bool
  | .reverse => true
  | .limit _ _ => false

/-- The window that a change sets, if it does not fail. -/
def Edit.window? : Edit → Option (Int64 × Int64)
  | .reverse => none
  | .limit offset count =>
    match offset.toInt64, count.toInt64 with
    | .ok o, .ok c => some (o, c)
    | _, _ => none

theorem edit_eq (p : Range) (e : Edit) :
    (p.edit e).1 = { p with
      reversed := p.reversed || e.reverses
      window := e.window?.or p.window } := by
  cases e with
  | reverse => simp [edit, reverse, Edit.reverses, Edit.window?]
  | limit offset count =>
    rw [edit, limit, Edit.reverses, Edit.window?]
    cases offset.toInt64 with
    | error why => simp [bind, Except.bind]
    | ok o =>
      cases count.toInt64 with
      | error why => simp [bind, Except.bind]
      | ok c => simp [bind, Except.bind, pure, Except.pure]

/-- What any number of changes add up to. -/
theorem editAll_eq (p : Range) (edits : List Edit) :
    p.editAll edits = { p with
      reversed := p.reversed || edits.any Edit.reverses
      window := (edits.filterMap Edit.window?).getLast?.or p.window } := by
  induction edits generalizing p with
  | nil => simp [editAll]
  | cons e rest ih =>
    have hstep : p.editAll (e :: rest) = (p.edit e).1.editAll rest := rfl
    rw [hstep, ih, edit_eq]
    cases hw : e.window? with
    | none => simp [hw, Bool.or_assoc]
    | some window =>
      cases ht : (rest.filterMap Edit.window?).getLast? with
      | none => simp [hw, ht, List.getLast?_cons, Bool.or_assoc]
      | some later => simp [hw, ht, List.getLast?_cons, Bool.or_assoc]

/-- A range as it is after it was made and changed. -/
theorem editAll_of_make {m : Maker} {min max : Value} {p : Range} (h : m.make min max = .ok p)
    (edits : List Edit) :
    ∃ low high, boundBytes (m.mode min max) min = .ok low ∧
      boundBytes (m.mode min max) max = .ok high ∧
      p.editAll edits = ⟨m.mode min max, low, high, edits.any Edit.reverses,
        (edits.filterMap Edit.window?).getLast?⟩ := by
  rw [make_eq, build_eq_ok_iff] at h
  obtain ⟨low, high, hlow, hhigh, rfl⟩ := h
  refine ⟨low, high, hlow, hhigh, ?_⟩
  rw [editAll_eq]
  simp [ofBounds]

end CommandWire.Range
