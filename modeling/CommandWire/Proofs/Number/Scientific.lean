import Mathlib.Data.Rat.Defs
import Mathlib.Tactic.FieldSimp
import CommandWire.Number.Layout
import CommandWire.Proofs.Number.Digits
import CommandWire.Proofs.Number.Integer

/-! Decimals with a point or an exponent, and how they are read.

        -   12    .5   e-07
        │   │     │    └──── the power of ten for the whole of it; may be left out
        │   │     └───────── digits behind the point; may be left out
        │   └─────────────── digits in front of the point, at least one
        └─────────────────── may be left out

    Every layout of some digits is read as these digits, with zeros around them and in the place for
    which they were laid out. The reading knows nothing of doubles, and nothing of the layouts. -/

namespace CommandWire

/-- A decimal: its sign, its digits, and the power of ten for which the last digit counts. -/
structure Scientific where
  negative : Bool
  digits : List (Fin 10)
  power : Int
  deriving DecidableEq

namespace Scientific

/-- The number that a decimal is. -/
def value (t : Scientific) : ℚ :=
  (if t.negative then -1 else 1) * (Decimal.number t.digits * 10 ^ t.power)

/-- How many significant digits a decimal has. -/
def precision (t : Scientific) : Nat := (Decimal.significant t.digits).length

/-- Zeros around digits are part of a decimal, but not of its number. -/
theorem value_between_zeros (negative : Bool) (m n : Nat) (ds : List (Fin 10)) (power : Int) :
    value ⟨negative, List.replicate m 0 ++ ds ++ List.replicate n 0, power - n⟩ =
      value ⟨negative, ds, power⟩ := by
  have hten : (10 : ℚ) ^ n ≠ 0 := by positivity
  rw [value, value, Decimal.number_between_zeros, zpow_sub₀ (by norm_num), zpow_natCast]
  push_cast
  field_simp

instance : DecidablePred Decimal.IsDigit := fun b =>
  inferInstanceAs (Decidable (48 ≤ b.toNat ∧ b.toNat ≤ 57))

theorem digit_lt {b : UInt8} (h : Decimal.IsDigit b) : b.toNat - 48 < 10 := by
  have hle := h.2
  omega

/-- The digits at the front of a byte string, and what is behind them. -/
def takeDigits : Bytes → List (Fin 10) × Bytes
  | [] => ([], [])
  | b :: rest =>
    if h : Decimal.IsDigit b then
      (⟨b.toNat - 48, digit_lt h⟩ :: (takeDigits rest).1, (takeDigits rest).2)
    else ([], b :: rest)

/-- The digits behind a point, if there is one, and what is behind them. -/
def takeFraction : Bytes → List (Fin 10) × Bytes
  | 46 :: rest => takeDigits rest
  | rest => ([], rest)

/-- The power of ten for the whole of a decimal, which is the rest of the byte string. -/
def readExponent : Bytes → Option Int
  | [] => some 0
  | 101 :: 43 :: rest => (Decimal.readDigits rest).map Int.ofNat
  | 101 :: 45 :: rest => (Decimal.readDigits rest).map Int.negOfNat
  | _ => none

/-- Reads a decimal whose sign is known. -/
def readUnsigned (negative : Bool) (s : Bytes) : Option Scientific :=
  let (whole, s) := takeDigits s
  let (fraction, s) := takeFraction s
  if whole = [] then none
  else (readExponent s).map fun e => ⟨negative, whole ++ fraction, e - fraction.length⟩

/-- Reads a decimal from all of a byte string. -/
def read : Bytes → Option Scientific
  | 45 :: s => readUnsigned true s
  | s => readUnsigned false s

/-! ### Reading the parts -/

/-- A digit in ASCII. -/
def digitByte (d : Fin 10) : UInt8 := UInt8.ofNat (48 + d)

theorem toNat_digitByte (d : Fin 10) : (digitByte d).toNat = 48 + d := Decimal.toNat_digit d.isLt

theorem isDigit_digitByte (d : Fin 10) : Decimal.IsDigit (digitByte d) := by
  have hd := d.isLt
  rw [Decimal.IsDigit, toNat_digitByte]
  omega

/-- What may be behind the digits of a decimal: nothing, or an exponent. -/
def Tail (s : Bytes) : Prop := ∀ b ∈ s.head?, b = 101

theorem takeDigits_append (ds : List (Fin 10)) {s : Bytes}
    (h : ∀ b ∈ s.head?, ¬ Decimal.IsDigit b) : takeDigits (ds.map digitByte ++ s) = (ds, s) := by
  induction ds with
  | nil =>
    cases s with
    | nil => rfl
    | cons b rest => simp [takeDigits, h b rfl]
  | cons d ds ih =>
    have hd : (⟨(digitByte d).toNat - 48, digit_lt (isDigit_digitByte d)⟩ : Fin 10) = d :=
      Fin.ext (by simp [toNat_digitByte])
    simp [takeDigits, isDigit_digitByte, ih, hd]

theorem Tail.not_isDigit {s : Bytes} (h : Tail s) : ∀ b ∈ s.head?, ¬ Decimal.IsDigit b := by
  intro b hb
  rw [h b hb]
  decide

theorem takeFraction_of_tail {s : Bytes} (h : Tail s) : takeFraction s = ([], s) := by
  cases s with
  | nil => rfl
  | cons b rest =>
    obtain rfl := h b rfl
    rfl

/-- Reading digits without a point. -/
theorem readUnsigned_whole (negative : Bool) {ds : List (Fin 10)} {s : Bytes} {e : Int}
    (hds : ds ≠ []) (hs : Tail s) (he : readExponent s = some e) :
    readUnsigned negative (ds.map digitByte ++ s) = some ⟨negative, ds, e⟩ := by
  simp [readUnsigned, takeDigits_append ds hs.not_isDigit, takeFraction_of_tail hs, hds, he]

/-- Reading digits on both sides of a point. -/
theorem readUnsigned_point (negative : Bool) {ds fs : List (Fin 10)} {s : Bytes} {e : Int}
    (hds : ds ≠ []) (hs : Tail s) (he : readExponent s = some e) :
    readUnsigned negative (ds.map digitByte ++ 46 :: (fs.map digitByte ++ s)) =
      some ⟨negative, ds ++ fs, e - fs.length⟩ := by
  have hpoint : ∀ b ∈ (46 :: (fs.map digitByte ++ s)).head?, ¬ Decimal.IsDigit b := by
    intro b hb
    obtain rfl := Option.some.inj hb
    decide
  simp [readUnsigned, takeDigits_append ds hpoint, takeFraction,
    takeDigits_append fs hs.not_isDigit, hds, he]

/-- What is read without a sign is read with all signs allowed. -/
theorem read_of_readUnsigned {s : Bytes} {t : Scientific} (h : readUnsigned false s = some t) :
    read s = some t := by
  unfold read
  split
  · cases h
  · exact h

/-! ### Reading a layout -/

/-- Characters as bytes, if they are ASCII. -/
def toBytes (cs : List Char) : Bytes := cs.map fun c => UInt8.ofNat c.toNat

/-- A digit as a character. -/
def digitChar (d : Fin 10) : Char := Decimal.digitChar d

theorem toBytes_append (cs ds : List Char) : toBytes (cs ++ ds) = toBytes cs ++ toBytes ds :=
  List.map_append

theorem toBytes_digits (ds : List (Fin 10)) : toBytes (ds.map digitChar) = ds.map digitByte := by
  have hdigit : ∀ d : Fin 10, UInt8.ofNat (digitChar d).toNat = digitByte d := by decide
  simp [toBytes, hdigit]

theorem toBytes_zeros (n : Nat) :
    toBytes (List.replicate n '0') = (List.replicate n (0 : Fin 10)).map digitByte := by
  rw [← toBytes_digits, List.map_replicate]
  rfl

theorem natChars_of_digits {n : Nat} {ds : List (Fin 10)} (h : ds.map Fin.val = Decimal.digits n) :
    Decimal.natChars n = ds.map digitChar := by
  rw [Decimal.natChars, ← h, List.map_map]
  rfl

theorem toBytes_natChars (n : Nat) : toBytes (Decimal.natChars n) = Decimal.natBytes n := by
  obtain ⟨ds, hds, -⟩ := Decimal.exists_number_digits n
  rw [natChars_of_digits hds, toBytes_digits, Decimal.natBytes, ← hds, List.map_map]
  rfl

/-- Zeros in front of a number do not change it. -/
theorem readDigits_zeros (n m : Nat) :
    Decimal.readDigits ((List.replicate m (0 : Fin 10)).map digitByte ++ Decimal.natBytes n) =
      some n := by
  have hzeros : ((List.replicate m (0 : Fin 10)).map digitByte).foldl Decimal.push (some 0) =
      some 0 := by
    induction m with
    | zero => rfl
    | succ m ih => exact ih
  rw [Decimal.readDigits_of_ne_nil, List.foldl_append, hzeros, Decimal.foldl_push_natBytes]
  exact List.append_ne_nil_of_right_ne_nil _ (Decimal.natBytes_ne_nil n)

theorem readExponent_exponent (l : Binary64.Layout) (e : Int) :
    readExponent (toBytes (l.exponent e)) = some e := by
  have hbytes : toBytes (l.exponent e) = 101 :: (if e < 0 then 45 else 43) ::
      ((List.replicate (l.exponentDigits - (Decimal.natChars e.natAbs).length) (0 : Fin 10)).map
        digitByte ++ Decimal.natBytes e.natAbs) := by
    rw [← toBytes_zeros, ← toBytes_natChars, ← toBytes_append]
    unfold Binary64.Layout.exponent
    split
    · rfl
    · rfl
  rw [hbytes]
  split
  · next he =>
    have habs : Int.negOfNat e.natAbs = e := by rw [Int.negOfNat_eq, Int.ofNat_eq_natCast]; omega
    rw [readExponent, readDigits_zeros, Option.map_some, habs]
  · next he =>
    have habs : Int.ofNat e.natAbs = e := by rw [Int.ofNat_eq_natCast]; omega
    rw [readExponent, readDigits_zeros, Option.map_some, habs]

theorem tail_exponent (l : Binary64.Layout) (e : Int) : Tail (toBytes (l.exponent e)) := by
  intro b hb
  obtain rfl := Option.some.inj hb
  rfl

theorem readUnsigned_whole_chars (negative : Bool) {ds : List (Fin 10)} {cs : List Char} {e : Int}
    (hds : ds ≠ []) (hcs : Tail (toBytes cs)) (he : readExponent (toBytes cs) = some e) :
    readUnsigned negative (toBytes (ds.map digitChar ++ cs)) = some ⟨negative, ds, e⟩ := by
  rw [toBytes_append, toBytes_digits]
  exact readUnsigned_whole negative hds hcs he

theorem readUnsigned_point_chars (negative : Bool) {ds : List (Fin 10)} (fs : List (Fin 10))
    {cs : List Char} {e : Int} (hds : ds ≠ []) (hcs : Tail (toBytes cs))
    (he : readExponent (toBytes cs) = some e) :
    readUnsigned negative (toBytes (ds.map digitChar ++ '.' :: (fs.map digitChar ++ cs))) =
      some ⟨negative, ds ++ fs, e - fs.length⟩ := by
  have hrest : toBytes ('.' :: (fs.map digitChar ++ cs)) =
      46 :: (fs.map digitByte ++ toBytes cs) := by
    rw [← toBytes_digits, ← toBytes_append]
    rfl
  rw [toBytes_append, toBytes_digits, hrest]
  exact readUnsigned_point negative hds hcs he

theorem digitChar_zero : digitChar 0 = '0' := rfl

/-- The digits of a layout are read in their place, with zeros around them. -/
theorem readUnsigned_write (l : Binary64.Layout) (negative : Bool) {ds : List (Fin 10)}
    (hds : ds ≠ []) (e : Int) :
    ∃ m n, readUnsigned negative (toBytes (l.write (ds.map digitChar) e)) =
      some ⟨negative, List.replicate m 0 ++ ds ++ List.replicate n 0, e + 1 - ds.length - n⟩ := by
  have hpos := List.length_pos_iff.mpr hds
  have hnil : Tail (toBytes []) := by simp [Tail, toBytes]
  have hexponent := tail_exponent l e
  unfold Binary64.Layout.write
  split
  · dsimp only
    split_ifs with hneg hlen
    · -- a zero in front of the point, and more of them behind it
      have hchars : '0' :: '.' :: (List.replicate (-e - 1).toNat '0' ++ ds.map digitChar) =
          [0].map digitChar ++ '.' ::
            ((List.replicate (-e - 1).toNat 0 ++ ds).map digitChar ++ []) := by
        simp [digitChar_zero]
      refine ⟨(-e - 1).toNat + 1, 0, ?_⟩
      rw [hchars, readUnsigned_point_chars negative _ (by simp) hnil rfl]
      simp [List.replicate_succ]
      omega
    · -- zeros behind the digits, on both sides of the point
      have hchars : ds.map digitChar ++
            List.replicate (e.toNat + 1 - (ds.map digitChar).length) '0' ++ ['.', '0'] =
          (ds ++ List.replicate (e.toNat + 1 - ds.length) 0).map digitChar ++ '.' ::
            ([0].map digitChar ++ []) := by
        simp [digitChar_zero]
      rw [List.length_map] at hlen
      refine ⟨0, e.toNat + 1 - ds.length + 1, ?_⟩
      rw [hchars, readUnsigned_point_chars negative _ (by simp [hds]) hnil rfl]
      simp [List.replicate_succ']
      omega
    · -- the point is among the digits
      have hchars : (ds.map digitChar).take (e.toNat + 1) ++ '.' ::
            (ds.map digitChar).drop (e.toNat + 1) =
          (ds.take (e.toNat + 1)).map digitChar ++ '.' ::
            ((ds.drop (e.toNat + 1)).map digitChar ++ []) := by
        simp
      rw [List.length_map] at hlen
      refine ⟨0, 0, ?_⟩
      rw [hchars, readUnsigned_point_chars negative _ (by simp [hds]) hnil rfl]
      simp
      omega
  · refine ⟨0, 0, ?_⟩
    match ds, hds with
    | [d], _ =>
      have hread := readUnsigned_whole_chars negative (List.cons_ne_nil d []) hexponent
        (readExponent_exponent l e)
      simpa using hread
    | d :: f :: fs, _ =>
      have hread := readUnsigned_point_chars negative (f :: fs) (List.cons_ne_nil d []) hexponent
        (readExponent_exponent l e)
      simpa using hread

end Scientific

end CommandWire
