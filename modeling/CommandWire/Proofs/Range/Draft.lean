import CommandWire.Proofs.Conversion.Integer
import CommandWire.Proofs.Range.Recognition

/-! A range while it is being put together, and why adding it cannot fail.

    A draft keeps a window as the two values that were given for it. It looks at both of them when
    the window is set, and converts them only when it is added to a request, at a time when other
    arguments are already there:

        limit      check offset ─▶ check count ─▶ keep both
        add        min ─▶ max ─▶ word ─▶ REV ─▶ LIMIT ─▶ convert offset ─▶ convert count

    So adding is all or nothing only because no draft ever keeps a value that was not checked, or
    one of a pair without the other. A draft that is reached by any calls holds just what its range
    says; hence it comes to the same as a fresh one that was turned around at most once and given at
    most one window. -/

namespace CommandWire

/-! ### Integers of 64 bits -/

namespace Value

/-- Whether a value is an integer of 64 bits. -/
def IsInt64 (v : Value) : Prop := ∃ n, v = .int n ∧ IntegerWay.int64.Accepts n

theorem toInt64_eq_ok_iff {v : Value} {n : Int64} : v.toInt64 = .ok n ↔ v = .int n.toInt := by
  constructor
  · intro h
    cases v with
    | int m =>
      rw [toInt64, toInteger] at h
      split at h
      · next hm =>
        obtain rfl := Except.ok.inj h
        rw [NumberForm.Holds.toInt_ofInt hm]
      · cases h
    | _ => cases h
  · rintro rfl
    have hn : NumberForm.int64.Holds n.toInt := ⟨Int64.le_toInt n, Int64.toInt_le n⟩
    rw [toInt64, toInteger, if_pos hn]
    simp [Except.map]

theorem isInt64_iff {v : Value} : v.IsInt64 ↔ ∃ n, v.toInt64 = .ok n := by
  constructor
  · rintro ⟨n, rfl, hn⟩
    refine ⟨Int64.ofInt n, toInt64_eq_ok_iff.mpr ?_⟩
    rw [NumberForm.Holds.toInt_ofInt (IntegerWay.accepts_iff_holds.mp hn)]
  · rintro ⟨n, hn⟩
    refine ⟨n.toInt, toInt64_eq_ok_iff.mp hn, ?_⟩
    exact IntegerWay.accepts_iff_holds.mpr ⟨Int64.le_toInt n, Int64.toInt_le n⟩

theorem ofInt64_of_ok {v : Value} {n : Int64} (h : v.toInt64 = .ok n) :
    Argument.ofInt64 v = .ok (Range.number n) := by
  rw [Argument.ofInt64, int64Bytes, h]
  rfl

theorem ofInt64_of_error {v : Value} {why : Failure} (h : v.toInt64 = .error why) :
    Argument.ofInt64 v = .error why := by
  rw [Argument.ofInt64, int64Bytes, h]
  rfl

end Value

namespace Request

/-- Appends an argument, if there is one. -/
def appendIfAny (r : Request) : Option Argument → Attempt Request
  | some a => r.append (.argument a)
  | none => (r, none)

/-- Converts an integer and appends it. -/
def appendNumber (r : Request) (v : Value) : Attempt Request :=
  match Argument.ofInt64 v with
  | .ok a => (r.push a, none)
  | .error why => (r, some why)

theorem appendNumber_int (r : Request) (n : Int64) :
    r.appendNumber (.int n.toInt) = (r.push (Range.number n), none) := by
  rw [appendNumber, Value.ofInt64_of_ok (Value.toInt64_eq_ok_iff.mpr rfl)]

end Request

namespace Range

/-! ### Drafts -/

/-- A range as it is kept between calls. Where there is no window, both values are zero. -/
structure Draft where
  word : Option Argument
  min : Argument
  max : Argument
  reversed : Bool
  limited : Bool
  offset : Value
  count : Value

/-- The draft of a range. -/
def draft (p : Range) : Draft where
  word := p.mode.keyword?.map .keyword
  min := .blob p.min
  max := .blob p.max
  reversed := p.reversed
  limited := p.window.isSome
  offset := .int (p.window.elim 0 (·.1.toInt))
  count := .int (p.window.elim 0 (·.2.toInt))

namespace Draft

/-- Sets the window: both values are checked before either is kept. -/
def limit (d : Draft) (offset count : Value) : Attempt Draft :=
  match Argument.ofInt64 offset with
  | .error why => (d, some why)
  | .ok _ =>
    match Argument.ofInt64 count with
    | .error why => (d, some why)
    | .ok _ => ({ d with limited := true, offset := offset, count := count }, none)

/-- One call that changes a draft. -/
def edit (d : Draft) : Edit → Attempt Draft
  | .reverse => ({ d with reversed := true }, none)
  | .limit offset count => d.limit offset count

/-- Calls one after another; a failing one does not stop the later ones. -/
def editAll (d : Draft) (edits : List Edit) : Draft := edits.foldl (fun q e => (q.edit e).1) d

/-- Appends a window, whose numbers are converted only now. -/
def addWindow (d : Draft) (r : Request) : Attempt Request :=
  Attempt.andThen (r.append (.argument (.keyword .limit))) fun r =>
  Attempt.andThen (r.appendNumber d.offset) fun r => r.appendNumber d.count

/-- Appends everything in turn, up to the first step that fails. -/
def addTo (d : Draft) (r : Request) : Attempt Request :=
  Attempt.andThen (r.append (.argument d.min)) fun r =>
  Attempt.andThen (r.append (.argument d.max)) fun r =>
  Attempt.andThen (r.appendIfAny d.word) fun r =>
  Attempt.andThen (r.appendIfAny (if d.reversed then some (.keyword .rev) else none)) fun r =>
  if d.limited then d.addWindow r else (r, none)

/-- Whether both words are missing, or both are the same argument. -/
def sameWord : Option Argument → Option Argument → Bool
  | some v, some w => v.eqv w
  | none, none => true
  | _, _ => false

/-- Equality of drafts, part by part. -/
def eqv (d e : Draft) : Bool :=
  sameWord d.word e.word && d.min.eqv e.min && d.max.eqv e.max && d.reversed == e.reversed
  && d.limited == e.limited && d.offset.eqv e.offset && d.count.eqv e.count

end Draft

/-! ### A draft holds what its range says -/

theorem draft_edit (p : Range) (e : Edit) :
    p.draft.edit e = ((p.edit e).1.draft, (p.edit e).2) := by
  cases e with
  | reverse => rfl
  | limit offset count =>
    rw [Draft.edit, Draft.limit, edit, limit]
    cases ho : offset.toInt64 with
    | error why =>
      rw [Value.ofInt64_of_error ho]
      rfl
    | ok o =>
      rw [Value.ofInt64_of_ok ho]
      cases hc : count.toInt64 with
      | error why =>
        rw [Value.ofInt64_of_error hc]
        rfl
      | ok c =>
        rw [Value.ofInt64_of_ok hc]
        obtain rfl := Value.toInt64_eq_ok_iff.mp ho
        obtain rfl := Value.toInt64_eq_ok_iff.mp hc
        rfl

theorem draft_editAll (p : Range) (edits : List Edit) :
    p.draft.editAll edits = (p.editAll edits).draft := by
  induction edits generalizing p with
  | nil => rfl
  | cons e edits ih =>
    rw [Draft.editAll, List.foldl_cons, draft_edit]
    exact ih (p.edit e).1

/-- The values of a window were checked when it was set, so converting them cannot fail now. -/
theorem draft_addTo (p : Range) (r : Request) :
    p.draft.addTo r = (r.pushAll p.arguments, none) := by
  obtain ⟨mode, min, max, reversed, window⟩ := p
  rcases mode with _ | _ | _ <;> rcases reversed with _ | _ <;>
    rcases window with _ | ⟨offset, count⟩ <;>
    simp [Draft.addTo, Draft.addWindow, draft, Request.append, Request.appendIfAny,
      Request.appendNumber_int, Request.push, Request.pushAll, arguments, Mode.keyword?]

theorem sameWord_keyword? (m n : Mode) :
    Draft.sameWord (m.keyword?.map .keyword) (n.keyword?.map .keyword) = true ↔ m = n := by
  cases m <;> cases n <;> decide +kernel

/-- Drafts are equal exactly if their ranges are: where there is no window, there are no values left
    over from an earlier one. -/
theorem draft_eqv (p q : Range) : p.draft.eqv q.draft = (Value.range p).eqv (.range q) := by
  obtain ⟨mode, min, max, reversed, window⟩ := p
  obtain ⟨mode', min', max', reversed', window'⟩ := q
  have hint : ∀ m n : Int, (Value.int m).eqv (.int n) = (m == n) := fun _ _ => rfl
  rw [Value.range_eqv, Bool.eq_iff_iff]
  rcases window with _ | ⟨offset, count⟩ <;> rcases window' with _ | ⟨offset', count'⟩ <;>
    simp [Draft.eqv, draft, sameWord_keyword?, Argument.eqv, Argument.raw, hint, Int64.toInt_inj,
      and_assoc]

/-! ### Normal form -/

/-- The change that turns a range around, if any of the changes does. -/
def turning (edits : List Edit) : List Edit :=
  if edits.any Edit.reverses then [.reverse] else []

/-- The last of the changes that sets a window, if any does. -/
def limiting (edits : List Edit) : List Edit :=
  (edits.filter fun e => e.window?.isSome).getLast?.toList

theorem any_reverses_turning (edits : List Edit) :
    (turning edits).any Edit.reverses = edits.any Edit.reverses := by
  rw [turning]
  cases edits.any Edit.reverses <;> rfl

theorem window?_turning (edits : List Edit) : (turning edits).filterMap Edit.window? = [] := by
  rw [turning]
  cases edits.any Edit.reverses <;> rfl

/-- The last change that sets a window sets the last window that is set. -/
theorem getLast?_filterMap_window? (edits : List Edit) :
    (edits.filterMap Edit.window?).getLast? =
      (edits.filter fun e => e.window?.isSome).getLast?.bind Edit.window? := by
  induction edits using List.reverseRecOn with
  | nil => rfl
  | append_singleton edits e ih =>
    cases hw : e.window? with
    | none => simp [hw, ih]
    | some window => simp [hw]

theorem any_reverses_limiting (edits : List Edit) :
    (limiting edits).any Edit.reverses = false := by
  rw [limiting]
  cases hlast : (edits.filter fun e => e.window?.isSome).getLast? with
  | none => rfl
  | some e =>
    have hsets := (List.mem_filter.mp (List.mem_of_getLast? hlast)).2
    cases e with
    | reverse => cases hsets
    | limit offset count => rfl

theorem window?_limiting (edits : List Edit) :
    ((limiting edits).filterMap Edit.window?).getLast? =
      (edits.filterMap Edit.window?).getLast? := by
  rw [getLast?_filterMap_window? edits, limiting]
  cases (edits.filter fun e => e.window?.isSome).getLast? with
  | none => rfl
  | some e => cases hw : e.window? <;> simp [hw]

/-- Turned around at most once and then limited at most once, or the other way round. -/
def normalForms (edits : List Edit) : List (List Edit) :=
  [turning edits ++ limiting edits, limiting edits ++ turning edits]

theorem editAll_normalForm {p : Range} {edits normal : List Edit} (h : normal ∈ normalForms edits) :
    p.editAll normal = p.editAll edits := by
  have hlast := window?_limiting edits
  simp only [normalForms, List.mem_cons, List.not_mem_nil, or_false] at h
  rcases h with rfl | rfl <;>
    simp [editAll_eq, any_reverses_turning, any_reverses_limiting, window?_turning, hlast]

/-- A window is set exactly if both values are integers of 64 bits; otherwise nothing changes. -/
theorem edit_limit (p : Range) (offset count : Value) :
    ((p.edit (.limit offset count)).2 = none ↔ offset.IsInt64 ∧ count.IsInt64) ∧
    (¬(offset.IsInt64 ∧ count.IsInt64) →
      ∃ why, p.edit (.limit offset count) = (p, some why)) := by
  rw [Value.isInt64_iff, Value.isInt64_iff, edit, limit]
  cases offset.toInt64 with
  | error why => simp [bind, Except.bind]
  | ok o => cases count.toInt64 <;> simp [bind, Except.bind, pure, Except.pure]

/-- After any calls, failed ones among them, a draft equals the fresh one that was turned around if
    any call did so and was given the last window that was set, in either order, and both add the
    same. Setting a window fails exactly if a value is no integer of 64 bits, for a draft and for
    its range alike, and then each of them is as before. Adding a draft never fails, whatever the
    request; it appends what the range that the calls come to appends: two bounds, and as many more
    as its parts ask for. -/
theorem draft_normal_form {m : Maker} {min max : Value} {made : Range}
    (hmake : m.make min max = .ok made) (edits : List Edit) :
    let p := made.editAll edits
    let d := made.draft.editAll edits
    (∀ normal ∈ normalForms edits,
      d.eqv (made.draft.editAll normal) = true ∧
      (Value.range p).eqv (.range (made.editAll normal)) = true ∧
      ∀ r, d.addTo r = (made.draft.editAll normal).addTo r) ∧
    (∀ offset count,
      ((d.edit (.limit offset count)).2 = none ↔ offset.IsInt64 ∧ count.IsInt64) ∧
      ((p.edit (.limit offset count)).2 = none ↔ offset.IsInt64 ∧ count.IsInt64) ∧
      (¬(offset.IsInt64 ∧ count.IsInt64) →
        ∃ why, d.edit (.limit offset count) = (d, some why) ∧
          p.edit (.limit offset count) = (p, some why))) ∧
    ∃ added : List Argument,
      (∀ r, d.addTo r = (r.pushAll added, none) ∧ r.addBuilt (.range p) = d.addTo r) ∧
      added.length = 2 + (if m.mode min max = .index then 0 else 1)
        + (if edits.any Edit.reverses then 1 else 0)
        + (if edits.any (fun e => e.window?.isSome) then 3 else 0) := by
  intro p d
  have hd : d = p.draft := draft_editAll made edits
  refine ⟨?_, ?_, p.arguments, ?_, ?_⟩
  · intro normal hnormal
    have hsame : made.editAll normal = p := editAll_normalForm hnormal
    have hequal : (Value.range p).eqv (.range p) = true := by simp
    rw [draft_editAll, hsame, hd, draft_eqv]
    exact ⟨hequal, hequal, fun _ => rfl⟩
  · intro offset count
    obtain ⟨hsets, hfails⟩ := edit_limit p offset count
    rw [hd, draft_edit]
    refine ⟨hsets, hsets, fun hbad => ?_⟩
    obtain ⟨why, hwhy⟩ := hfails hbad
    exact ⟨why, by rw [hwhy], hwhy⟩
  · intro r
    rw [hd, draft_addTo]
    exact ⟨rfl, rfl⟩
  · obtain ⟨low, high, -, -, hp⟩ := editAll_of_make hmake edits
    have hwindow : p.window = none ↔ edits.any (fun e => e.window?.isSome) = false := by
      rw [show p.window = _ from congrArg Range.window hp, List.getLast?_eq_none_iff]
      simp
    rw [length_arguments, show p.mode = _ from congrArg Range.mode hp,
      show p.reversed = _ from congrArg Range.reversed hp]
    congr 1
    cases hany : edits.any (fun e => e.window?.isSome) with
    | false => simp [hwindow.mpr hany]
    | true =>
      have hsome : p.window ≠ none := by simp [hwindow, hany]
      simp [hsome]

/-- A window whose count is missing comes after one that was set: what it gives for an offset is not
    kept either. -/
theorem draft_normal_form_failed_count :
    let made : Range := ⟨.lex, ascii "-", ascii "+", false, none⟩
    let p := made.editAll [.limit (.int 1) (.int 2), .reverse, .limit (.int 3) .none]
    let d := made.draft.editAll [.limit (.int 1) (.int 2), .reverse, .limit (.int 3) .none]
    Maker.lex.make (.text "-") (.text "+") = .ok made ∧
      d.eqv (made.draft.editAll [.reverse, .limit (.int 1) (.int 2)]) = true ∧
      (∃ why, d.edit (.limit (.int 3) .none) = (d, some why) ∧
        p.edit (.limit (.int 3) .none) = (p, some why)) ∧
      ∃ added, (∀ r, d.addTo r = (r.pushAll added, none)) ∧ added.length = 7 := by
  intro made p d
  have hmake : Maker.lex.make (.text "-") (.text "+") = .ok made := by rfl
  obtain ⟨hnormal, hlimit, added, hadded, hlength⟩ :=
    draft_normal_form hmake [.limit (.int 1) (.int 2), .reverse, .limit (.int 3) .none]
  refine ⟨hmake, (hnormal _ List.mem_cons_self).1, (hlimit _ _).2.2 ?_, added, ?_, hlength⟩
  · rintro ⟨-, n, hn, -⟩
    cases hn
  · intro r
    exact (hadded r).1

end Range
end CommandWire
