import CommandWire.Conversion
import CommandWire.Proofs.Number.Integer
import CommandWire.Proofs.Number.Layout

/-! Integers as arguments.

    An integer is asked for in 32 bits, in 64 bits, or as any value. The first way passes what it
    holds on to the second, and so does the last, so all that accept an integer write the same:

        int32 ──in 32 bits──▶ int64 ──in 64 bits──▶ the canonical decimal
                                ▲
        any ──an integer────────┘

    Past its bounds a way refuses with its own form. A double is never written like an integer. -/

namespace CommandWire

/-- Whether a form of integers can hold a number. -/
abbrev NumberForm.Holds (form : NumberForm) (n : Int) : Prop :=
  form.bounds.1 ≤ n ∧ n ≤ form.bounds.2

namespace NumberForm

theorem Holds.widen {n : Int} (h : int32.Holds n) : int64.Holds n := by
  simp only [Holds, bounds] at h ⊢
  omega

/-- What a form of 64 bits holds does not wrap around. -/
theorem Holds.toInt_ofInt {n : Int} (h : int64.Holds n) : (Int64.ofInt n).toInt = n := by
  simp only [Holds, bounds] at h
  exact Int64.toInt_ofInt_of_le (by omega) (by omega)

end NumberForm

namespace Value

/-- What becomes of an integer that a form is to hold. -/
def writeIn (form : NumberForm) (n : Int) : Except Failure Bytes :=
  if form.Holds n then .ok (Decimal.intBytes n) else .error (.outOfRange form n)

theorem writeIn_of_holds {form : NumberForm} {n : Int} (h : form.Holds n) :
    writeIn form n = .ok (Decimal.intBytes n) := if_pos h

theorem writeIn_of_not_holds {form : NumberForm} {n : Int} (h : ¬ form.Holds n) :
    writeIn form n = .error (.outOfRange form n) := if_neg h

theorem int64Bytes_int (n : Int) : (Value.int n).int64Bytes = writeIn .int64 n := by
  rw [int64Bytes, toInt64, toInteger]
  by_cases h : NumberForm.int64.Holds n
  · rw [if_pos h, writeIn_of_holds h]
    show Except.ok (Decimal.intBytes (Int64.ofInt n).toInt) = _
    rw [h.toInt_ofInt]
  · rw [if_neg h, writeIn_of_not_holds h]
    rfl

theorem int32Bytes_int (n : Int) : (Value.int n).int32Bytes = writeIn .int32 n := by
  rw [int32Bytes, toInteger]
  by_cases h : NumberForm.int32.Holds n
  · rw [if_pos h, writeIn_of_holds h]
    exact (int64Bytes_int n).trans (writeIn_of_holds h.widen)
  · rw [if_neg h, writeIn_of_not_holds h]
    rfl

end Value

/-- The ways of making an argument of an integer. -/
inductive IntegerWay where | int32 | int64 | any
  deriving DecidableEq

namespace IntegerWay

/-- The argument that is made of a value. -/
def make : IntegerWay → Value → Except Failure Argument
  | .int32 => Argument.ofInt32
  | .int64 => Argument.ofInt64
  | .any => Argument.ofValue

/-- The form that has to hold the integer. -/
def form : IntegerWay → NumberForm
  | .int32 => .int32
  | .int64 | .any => .int64

/-- The integers of 32 bits, or those of 64. -/
def Accepts : IntegerWay → Int → Prop
  | .int32, n => -2147483648 ≤ n ∧ n ≤ 2147483647
  | .int64, n | .any, n => -9223372036854775808 ≤ n ∧ n ≤ 9223372036854775807

theorem accepts_iff_holds {way : IntegerWay} {n : Int} : way.Accepts n ↔ way.form.Holds n := by
  cases way with
  | int32 => exact Iff.rfl
  | int64 => exact Iff.rfl
  | any => exact Iff.rfl

theorem make_int (way : IntegerWay) (n : Int) :
    way.make (.int n) = (Value.writeIn way.form n).map .blob := by
  cases way with
  | int32 => exact congrArg (Except.map Argument.blob) (Value.int32Bytes_int n)
  | int64 => exact congrArg (Except.map Argument.blob) (Value.int64Bytes_int n)
  | any => exact congrArg (Except.map Argument.blob) (Value.int64Bytes_int n)

variable {way : IntegerWay} {n : Int}

theorem make_of_accepts (h : way.Accepts n) :
    way.make (.int n) = .ok (.blob (Decimal.intBytes n)) := by
  rw [make_int, Value.writeIn_of_holds (accepts_iff_holds.mp h)]
  rfl

theorem make_of_not_accepts (h : ¬ way.Accepts n) :
    way.make (.int n) = .error (.outOfRange way.form n) := by
  rw [make_int, Value.writeIn_of_not_holds (mt accepts_iff_holds.mpr h)]
  rfl

theorem make_eq_ok_iff {a : Argument} :
    way.make (.int n) = .ok a ↔ way.Accepts n ∧ a = .blob (Decimal.intBytes n) := by
  by_cases h : way.Accepts n
  · rw [make_of_accepts h, Except.ok.injEq, eq_comm]
    exact (and_iff_right h).symm
  · rw [make_of_not_accepts h]
    simp [h]

end IntegerWay

/-! ### Doubles -/

namespace Binary64

/-- Every number has a text on the wire. -/
theorem exists_wireBytes {x : Binary64} (hnan : x.isNaN = false) : ∃ s, x.wireBytes = .ok s := by
  simp only [wireBytes, hnan, Bool.false_eq_true, if_false]
  split
  · exact ⟨_, rfl⟩
  · exact ⟨_, rfl⟩

theorem isNaN_of_wireBytes {x : Binary64} {s : Bytes} (h : x.wireBytes = .ok s) :
    x.isNaN = false := by
  unfold wireBytes at h
  split at h
  · cases h
  · next hnan => simpa using hnan

/-- In the text of a double there is a byte that no decimal of an integer has. -/
theorem exists_mark_wireBytes {x : Binary64} {s : Bytes} (h : x.wireBytes = .ok s) :
    ∃ b ∈ s, b ≠ 45 ∧ ¬ Decimal.IsDigit b := by
  unfold wireBytes at h
  split at h
  · cases h
  · next hnan =>
    split at h
    · -- the first letter of the word
      obtain rfl := Except.ok.inj h
      refine ⟨105, ?_, by decide, by simp [Decimal.IsDigit]⟩
      split
      · decide
      · decide
    · next hinf =>
      obtain rfl := Except.ok.inj h
      obtain ⟨c, hmem, hc⟩ := exists_mark_chars (by simpa using hnan) (by simpa using hinf)
      have htext : c ∈ x.text.toList := by rwa [text, String.toList_ofList]
      refine ⟨UInt8.ofNat c.toNat, List.mem_map_of_mem htext, ?_⟩
      rcases hc with rfl | rfl
      · exact ⟨by decide, by simp [Decimal.IsDigit]⟩
      · exact ⟨by decide, by simp [Decimal.IsDigit]⟩

/-- No double is written like an integer. -/
theorem wireBytes_ne_intBytes {x : Binary64} {s : Bytes} (h : x.wireBytes = .ok s) (n : Int) :
    s ≠ Decimal.intBytes n := by
  rintro rfl
  obtain ⟨b, hb, hminus, hnot⟩ := exists_mark_wireBytes h
  rcases Decimal.eq_minus_or_isDigit_of_mem_intBytes hb with heq | hdigit
  · exact hminus heq
  · exact hnot hdigit

end Binary64

/-! ### All ways together -/

/-- An integer becomes an argument exactly if the way that is taken accepts it, and is refused as
    out of range otherwise. The bytes are the one canonical decimal that reads back as the integer.
    So whichever ways are taken, two arguments have the same bytes exactly if they are made of the
    same integer; and every double that is a number makes an argument of other bytes. -/
theorem make_integer_exact (way : IntegerWay) (n : Int) :
    ((∃ a, way.make (.int n) = .ok a) ↔ way.Accepts n) ∧
    (¬ way.Accepts n → way.make (.int n) = .error (.outOfRange way.form n)) ∧
    ∀ a, way.make (.int n) = .ok a →
      (∀ s, s = a.raw ↔ Decimal.Canonical s ∧ Decimal.readInt s = some n) ∧
      (∀ other m b, IntegerWay.make other (.int m) = .ok b → (a.raw = b.raw ↔ n = m)) ∧
      ∀ x : Binary64, x.isNaN = false →
        ∃ b, Argument.ofFloat (.float x) = .ok b ∧ a.raw ≠ b.raw := by
  refine ⟨?_, IntegerWay.make_of_not_accepts, fun a ha => ?_⟩
  · constructor
    · rintro ⟨a, ha⟩
      exact (IntegerWay.make_eq_ok_iff.mp ha).1
    · intro h
      exact ⟨_, IntegerWay.make_of_accepts h⟩
  · obtain ⟨-, rfl⟩ := IntegerWay.make_eq_ok_iff.mp ha
    refine ⟨fun s => Decimal.eq_intBytes_iff, fun other m b hb => ?_, fun x hnan => ?_⟩
    · obtain ⟨-, rfl⟩ := IntegerWay.make_eq_ok_iff.mp hb
      exact Decimal.intBytes_inj
    · obtain ⟨s, hs⟩ := Binary64.exists_wireBytes hnan
      refine ⟨.blob s, congrArg (Except.map Argument.blob) hs, ?_⟩
      exact (Binary64.wireBytes_ne_intBytes hs n).symm

example : IntegerWay.int32.make (.int 2147483648) = .error (.outOfRange .int32 2147483648) := by
  decide

end CommandWire
