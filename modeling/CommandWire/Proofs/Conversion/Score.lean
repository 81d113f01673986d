import CommandWire.Proofs.Conversion.Integer
import CommandWire.Proofs.Number.Rounding
import CommandWire.Proofs.Range.Making

/-! Integers where a score is expected.

    A score is a double. An integer that stands for one is rounded first, and then nothing tells it
    from the double that it was rounded to; only an integer that is too large for a finite double is
    refused. Where no score is expected, an integer is written exactly, so it has to fit 64 bits:

        score       |n| < 2¹⁰²⁴ - 2⁹⁷⁰     written as the nearest double
        position    -2⁶³ ≤ n < 2⁶³         written as it is

    A range is one of scores if it was asked for as such, or if one of its bounds is a float; then
    the other bound is rounded too. -/

namespace CommandWire

namespace Value

/-- Whether a value stands for a score: a float for itself, an integer for the double it is rounded
    to, of the same sign. -/
def Scores : Value → Binary64 → Prop
  | .float x, y => x = y
  | .int n, y => Binary64.Nearest n y ∧ y.negative = decide (n < 0)
  | _, _ => False

theorem scores_int_iff {n : Int} {x : Binary64} :
    (Value.int n).Scores x ↔ Binary64.ofInt? n = some x :=
  Binary64.ofInt?_eq_some_iff.symm

/-- A value is written like the score that it stands for. -/
theorem floatBytes_of_scores {v : Value} {x : Binary64} (h : v.Scores x) :
    v.floatBytes = (Value.float x).floatBytes := by
  cases v with
  | float y =>
    obtain rfl : y = x := h
    rfl
  | int n =>
    rw [scores_int_iff] at h
    simp [floatBytes, h]
  | _ => cases h

theorem floatBytes_float_iff {x : Binary64} :
    (∃ s, (Value.float x).floatBytes = .ok s) ↔ x.isNaN = false := by
  constructor
  · rintro ⟨s, hs⟩
    exact Binary64.isNaN_of_wireBytes hs
  · exact Binary64.exists_wireBytes

/-- A value can be written as a score exactly if it stands for one that is a number. -/
theorem floatBytes_iff {v : Value} :
    (∃ s, v.floatBytes = .ok s) ↔ ∃ x, v.Scores x ∧ x.isNaN = false := by
  constructor
  · intro h
    cases v with
    | float x => exact ⟨x, rfl, floatBytes_float_iff.mp h⟩
    | int n =>
      cases hn : Binary64.ofInt? n with
      | none => simp [floatBytes, hn] at h
      | some x =>
        have hscores := scores_int_iff.mpr hn
        rw [floatBytes_of_scores hscores] at h
        exact ⟨x, hscores, floatBytes_float_iff.mp h⟩
    | _ => simp [floatBytes] at h
  · rintro ⟨x, hx, hnan⟩
    rw [floatBytes_of_scores hx]
    exact floatBytes_float_iff.mpr hnan

/-- An integer stands for one score, unless it is too large. -/
theorem exists_scores_int {n : Int} (h : |n| < 2 ^ 1024 - 2 ^ 970) :
    ∃ x, (Value.int n).Scores x ∧ x.isNaN = false ∧ ∀ y, (Value.int n).Scores y → y = x := by
  cases hn : Binary64.ofInt? n with
  | none => exact absurd (Binary64.ofInt?_eq_none_iff.mp hn) (not_le.mpr h)
  | some x =>
    have hscores := scores_int_iff.mpr hn
    refine ⟨x, hscores, Binary64.isNaN_of_isFinite hscores.1.finite, fun y hy => ?_⟩
    rw [scores_int_iff, hn] at hy
    exact (Option.some.inj hy).symm

end Value

namespace Range

variable {m : Maker} {v w : Value}

theorem mode_float (h : m.mode v w = .score) (x y : Binary64) :
    m.mode (.float x) (.float y) = .score := by
  cases m with
  | numbers => rfl
  | score => rfl
  | index => cases h
  | lex => cases h

/-- A range of scores needs two scores. -/
theorem make_score_iff (h : m.mode v w = .score) : (∃ p, m.make v w = .ok p) ↔
    (∃ x, v.Scores x ∧ x.isNaN = false) ∧ ∃ y, w.Scores y ∧ y.isNaN = false := by
  rw [make_eq, h, boundBytes, ← Value.floatBytes_iff, ← Value.floatBytes_iff]
  constructor
  · rintro ⟨p, hp⟩
    obtain ⟨low, high, hlow, hhigh, -⟩ := build_eq_ok_iff.mp hp
    exact ⟨⟨low, hlow⟩, high, hhigh⟩
  · rintro ⟨⟨low, hlow⟩, high, hhigh⟩
    exact ⟨_, build_eq_ok_iff.mpr ⟨low, high, hlow, hhigh, rfl⟩⟩

/-- A range of scores does not show for which values its bounds stood. -/
theorem make_of_scores (h : m.mode v w = .score) {x y : Binary64} (hv : v.Scores x)
    (hw : w.Scores y) : m.make v w = m.make (.float x) (.float y) := by
  rw [make_eq, make_eq, h, mode_float h, boundBytes, build, build,
    Value.floatBytes_of_scores hv, Value.floatBytes_of_scores hw]

theorem make_of_min_error (h : m.mode v w = .index) {why : Failure}
    (hv : v.int64Bytes = .error why) : m.make v w = .error why := by
  rw [make_eq, h, boundBytes, build, hv]
  rfl

theorem make_of_max_error (h : m.mode v w = .index) {why : Failure}
    (hw : w.int64Bytes = .error why) : ∃ why, m.make v w = .error why := by
  cases hv : v.int64Bytes with
  | error other => exact ⟨other, make_of_min_error h hv⟩
  | ok low =>
    refine ⟨why, ?_⟩
    rw [make_eq, h, boundBytes, build, hv, hw]
    rfl

end Range

theorem ofFloat_of_tooLarge {n : Int} (h : (2 ^ 1024 - 2 ^ 970 : Int) ≤ |n|) :
    Argument.ofFloat (.int n) = .error (.outOfRange .double n) := by
  rw [Argument.ofFloat, Value.floatBytes, Binary64.ofInt?_eq_none_iff.mpr h]
  rfl

/-- An integer that is not too large makes the argument of the one double for which it stands. -/
theorem exists_ofFloat_int {n : Int} (h : |n| < 2 ^ 1024 - 2 ^ 970) :
    ∃ x a, (Value.int n).Scores x ∧ x.isNaN = false ∧ (∀ y, (Value.int n).Scores y → y = x) ∧
      Argument.ofFloat (.int n) = .ok a ∧ Argument.ofFloat (.float x) = .ok a := by
  obtain ⟨x, hx, hnan, hunique⟩ := Value.exists_scores_int h
  obtain ⟨s, hs⟩ := Value.floatBytes_float_iff.mpr hnan
  refine ⟨x, .blob s, hx, hnan, hunique, ?_, congrArg (Except.map Argument.blob) hs⟩
  rw [Argument.ofFloat, Value.floatBytes_of_scores hx, hs]
  rfl

/-- An integer is refused as a score exactly if it is too large; every other one stands for one
    double and makes the same argument as that does. In a range of scores both bounds have to stand
    for scores, and the range is the same as that of these doubles. An integer that does not fit 64
    bits is refused as a value of its own and as a bound of positions. -/
theorem integer_score_rounded (n : Int) :
    ((∃ why, Argument.ofFloat (.int n) = .error why) ↔ (2 ^ 1024 - 2 ^ 970 : Int) ≤ |n|) ∧
    ((2 ^ 1024 - 2 ^ 970 : Int) ≤ |n| →
      Argument.ofFloat (.int n) = .error (.outOfRange .double n)) ∧
    (|n| < 2 ^ 1024 - 2 ^ 970 → ∃ x a, (Value.int n).Scores x ∧
      x.isNaN = false ∧ (∀ y, (Value.int n).Scores y → y = x) ∧
      Argument.ofFloat (.int n) = .ok a ∧ Argument.ofFloat (.float x) = .ok a) ∧
    (∀ (m : Range.Maker) (v w : Value), m.mode v w = .score →
      ((∃ p, m.make v w = .ok p) ↔
        (∃ x, v.Scores x ∧ x.isNaN = false) ∧ ∃ y, w.Scores y ∧ y.isNaN = false) ∧
      ∀ x y, v.Scores x → w.Scores y → m.make v w = m.make (.float x) (.float y)) ∧
    (¬ IntegerWay.int64.Accepts n → Argument.ofValue (.int n) = .error (.outOfRange .int64 n) ∧
      ∀ (m : Range.Maker) (w : Value),
        (m.mode (.int n) w = .index → m.make (.int n) w = .error (.outOfRange .int64 n)) ∧
        (m.mode w (.int n) = .index → ∃ why, m.make w (.int n) = .error why)) := by
  refine ⟨?_, ofFloat_of_tooLarge, exists_ofFloat_int, ?_, ?_⟩
  · constructor
    · rintro ⟨why, hwhy⟩
      by_contra hlarge
      obtain ⟨x, a, -, -, -, hok, -⟩ := exists_ofFloat_int (not_le.mp hlarge)
      cases hwhy.symm.trans hok
    · intro hlarge
      exact ⟨_, ofFloat_of_tooLarge hlarge⟩
  · intro m v w hmode
    exact ⟨Range.make_score_iff hmode, fun x y hv hw => Range.make_of_scores hmode hv hw⟩
  · intro hn
    have hholds : ¬ NumberForm.int64.Holds n := mt (@IntegerWay.accepts_iff_holds .int64 n).mpr hn
    have hbytes : (Value.int n).int64Bytes = .error (.outOfRange .int64 n) := by
      rw [Value.int64Bytes_int, Value.writeIn_of_not_holds hholds]
    refine ⟨@IntegerWay.make_of_not_accepts .any n hn, fun m w => ⟨?_, ?_⟩⟩
    · intro hmode
      exact Range.make_of_min_error hmode hbytes
    · intro hmode
      exact Range.make_of_max_error hmode hbytes

-- halfway between two doubles, of which the lower one is even
example : Binary64.ofInt? 9007199254740993 = Binary64.ofInt? 9007199254740992 := by decide +kernel

end CommandWire
