import CommandWire.Request.Cursor

/-! What a cursor has ahead of it.

    Over a request as it is, a cursor has a list of items ahead; moving it on gives the first of
    them and leaves the others ahead. So reading on until it stops gives just that list:

        header    the line with the size, then every argument as a piece on the wire
        command   every argument
        param i   the parameters from position i on
        stopped   nothing -/

namespace CommandWire.Cursor

/-- The items that a cursor has ahead over a request as it is. -/
def ahead (r : Request) : Cursor → List Bytes
  | .header => Wire.header r.size :: r.arguments.map Form.bulk.write
  | .command form => r.arguments.map form.write
  | .param form i => (r.params.drop i).map form.write
  | .stopped => []

variable {r : Request} {c c' : Cursor}

/-- Moving on takes the first item off those ahead. -/
theorem ahead_of_nextIn_some {item : Bytes} (h : nextIn r c = (c', some item)) :
    c.ahead r = item :: c'.ahead r := by
  cases c with
  | header | command =>
    cases h
    rfl
  | param form i =>
    rw [nextIn] at h
    split at h
    · next a ha =>
      cases h
      obtain ⟨hi, rfl⟩ := List.getElem?_eq_some_iff.mp ha
      rw [ahead, List.drop_eq_getElem_cons hi]
      rfl
    · cases h
  | stopped => cases h

/-- A cursor stops when there is nothing ahead. -/
theorem ahead_of_nextIn_none (h : nextIn r c = (c', none)) : c.ahead r = [] := by
  cases c with
  | header | command => cases h
  | param form i =>
    rw [nextIn] at h
    split at h
    · cases h
    · next ha =>
      have hle := List.getElem?_eq_none_iff.mp ha
      rw [ahead, List.drop_of_length_le hle, List.map_nil]
  | stopped => rfl

/-- Everything that a cursor gives until it stops, over a request that no longer changes. -/
def exhaust (r : Request) (c : Cursor) : List Bytes :=
  match _ : nextIn r c with
  | (_, none) => []
  | (c', some item) => item :: c'.exhaust r
termination_by (c.ahead r).length
decreasing_by
  rw [ahead_of_nextIn_some (c := c) ‹_›, List.length_cons]
  exact Nat.lt_succ_self _

theorem exhaust_eq_ahead (r : Request) (c : Cursor) : c.exhaust r = c.ahead r := by
  fun_induction exhaust r c with
  | case1 c c' h => exact (ahead_of_nextIn_none h).symm
  | case2 c c' item h ih => rw [ih, ahead_of_nextIn_some h]

/-- The pieces of a request on the wire, read one by one. -/
theorem exhaust_chunks (r : Request) : chunks.exhaust r = Wire.chunks r := by
  rw [exhaust_eq_ahead]
  rfl

end CommandWire.Cursor
