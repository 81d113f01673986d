import CommandWire.Proofs.Conversion.Integer
import CommandWire.Proofs.Number.Scientific
import CommandWire.Proofs.Number.Shortest

/-! The text of a double is the shortest decimal that reads as it.

        double ──── text ────▶ argument
          ▲                       │
          └── nearest, same sign ─┘ read as a decimal

    A decimal reads as the double that is nearest to it and has its sign, so the text of a zero
    tells which one it is. Infinity is no decimal and always has a sign. -/

namespace CommandWire

namespace Scientific

/-- A decimal reads as the nearest double of the same sign. -/
structure ReadsAs (t : Scientific) (x : Binary64) : Prop where
  nearest : Binary64.Nearest t.value x
  sign : x.negative = t.negative

/-- A decimal without its sign, in units. -/
def magnitude (t : Scientific) : ℚ := Decimal.number t.digits * Binary64.width t.power

theorem magnitude_nonneg (t : Scientific) : 0 ≤ t.magnitude :=
  mul_nonneg (Nat.cast_nonneg _) (Binary64.width_pos _).le

theorem magnitude_div_one (t : Scientific) :
    t.magnitude / Binary64.one = Decimal.number t.digits * 10 ^ t.power := by
  rw [magnitude, Binary64.width, ← mul_assoc, mul_div_cancel_right₀ _ Binary64.one_cast_pos.ne']

theorem value_eq {t : Scientific} {x : Binary64} (h : x.negative = t.negative) :
    t.value = x.sign * (t.magnitude / Binary64.one) := by
  rw [value, magnitude_div_one, Binary64.sign, h]

theorem value_eq_neg {t : Scientific} {x : Binary64} (h : x.negative ≠ t.negative) :
    t.value = x.sign * (-t.magnitude / Binary64.one) := by
  rw [value, neg_div, magnitude_div_one, Binary64.sign, Bool.eq_not.mpr h]
  cases t.negative
  · simp
  · simp

theorem readsAs_iff {t : Scientific} {x : Binary64} : t.ReadsAs x ↔
    x.negative = t.negative ∧ x.index < Binary64.infinityIndex ∧
      Binary64.Covers x.index t.magnitude := by
  constructor
  · rintro ⟨hnearest, hsign⟩
    rw [value_eq hsign, Binary64.nearest_iff_covers t.magnitude_nonneg] at hnearest
    exact ⟨hsign, hnearest⟩
  · rintro ⟨hsign, hcovers⟩
    refine ⟨?_, hsign⟩
    rwa [value_eq hsign, Binary64.nearest_iff_covers t.magnitude_nonneg]

/-- A decimal reads as one double at most. -/
theorem ReadsAs.unique {t : Scientific} {x y : Binary64} (hx : t.ReadsAs x) (hy : t.ReadsAs y) :
    y = x := by
  have hxnear := hx.nearest
  have hynear := hy.nearest
  rw [value_eq hx.sign] at hxnear hynear
  exact Binary64.Nearest.unique t.magnitude_nonneg hxnear hynear (hy.sign.trans hx.sign.symm)

/-- What is rounded to a double that is not zero lies on its side. -/
theorem covers_of_nearest {t : Scientific} {x : Binary64} (h : Binary64.Nearest t.value x)
    (hi : 0 < x.index) : Binary64.Covers x.index t.magnitude := by
  by_cases hsign : x.negative = t.negative
  · exact (readsAs_iff.mp ⟨h, hsign⟩).2.2
  · -- zero would be nearer
    exfalso
    have hone := Binary64.one_cast_pos
    obtain ⟨y, hy, hysign, hyindex⟩ := @Binary64.exists_same_side x 0 (by decide)
    have hnearer := h.nearest y hy
    have hnonneg := t.magnitude_nonneg
    have hunits := Binary64.units_pos_cast hi
    rw [value_eq_neg hsign, Binary64.dist_same rfl, Binary64.dist_same hysign, hyindex,
      Binary64.units_zero, Nat.cast_zero, sub_zero, div_le_div_iff_of_pos_right hone,
      abs_of_nonpos (by linarith), abs_of_nonpos (by linarith)] at hnearer
    linarith

end Scientific

namespace Binary64

/-! ### The digits of a magnitude -/

/-- Digits that are laid out for a magnitude: their number lies in its interval, and no other
    decimal there has fewer. -/
structure LaidOut (i : Nat) (ds : List (Fin 10)) (e : Int) : Prop where
  nonempty : ds ≠ []
  chars : magnitudeChars i = layout.write (ds.map Scientific.digitChar) e
  covers : Covers i (Decimal.number ds * width (e + 1 - ds.length))
  fewest : 0 < i → ∀ (d : Nat) (k : Int) (n : Nat), Covers i (d * width k) → d < 10 ^ n →
    ds.length ≤ n
  zero : i = 0 → Decimal.significant ds = []

theorem laidOut_zero : LaidOut 0 [0] 0 where
  nonempty := List.cons_ne_nil _ _
  chars := rfl
  covers := by
    have hzero : Decimal.number [0] = 0 := by decide
    simpa [hzero] using covers_units 0
  fewest := fun h => absurd h (lt_irrefl 0)
  zero := fun _ => by decide

theorem exists_laidOut (i : Nat) : ∃ ds e, LaidOut i ds e := by
  rcases Nat.eq_zero_or_pos i with rfl | hi
  · exact ⟨_, _, laidOut_zero⟩
  · obtain ⟨hcovers, hfewest⟩ := shortest_spec hi
    have hpos : 0 < (shortest i).1 := (hcovers.le_leadingExponent hi).1
    obtain ⟨ds, hds, hnumber⟩ := Decimal.exists_number_digits (shortest i).1
    have hlength : (Decimal.digits (shortest i).1).length = ds.length := by
      rw [← hds, List.length_map]
    have hchars := Scientific.natChars_of_digits hds
    refine ⟨ds, ds.length - 1 + (shortest i).2, ?_, ?_, ?_, ?_, fun h => absurd h hi.ne'⟩
    · rintro rfl
      exact (Decimal.length_digits_pos _).ne' hlength
    · rw [magnitudeChars, if_neg hi.ne']
      dsimp only
      rw [hchars, List.length_map]
    · have hplace : (ds.length - 1 + (shortest i).2 + 1 - ds.length : ℤ) = (shortest i).2 := by
        omega
      rwa [hnumber, hplace]
    · intro _ d k n hd hn
      rw [← hlength]
      exact Decimal.length_digits_le hpos (hfewest d k n hd hn)

/-! ### The whole text -/

theorem ascii_text {x : Binary64} (hx : x.isFinite = true) :
    ascii x.text = if x.negative then 45 :: Scientific.toBytes (magnitudeChars x.index)
      else Scientific.toBytes (magnitudeChars x.index) := by
  rw [ascii, text, String.toList_ofList, chars, isNaN_of_isFinite hx, isInfinite_of_isFinite hx]
  cases x.negative
  · rfl
  · rfl

/-- The text of a finite double reads as it, and has as few digits as can be. -/
theorem exists_read_text {x : Binary64} (hx : x.isFinite = true) :
    ∃ t, Scientific.read (ascii x.text) = some t ∧ t.ReadsAs x ∧
      ∀ other : Scientific, Nearest other.value x → t.precision ≤ other.precision := by
  obtain ⟨ds, e, hds⟩ := exists_laidOut x.index
  obtain ⟨m, n, hread⟩ := Scientific.readUnsigned_write layout x.negative hds.nonempty e
  have hvalue := Scientific.value_between_zeros x.negative m n ds (e + 1 - ds.length)
  rw [← hds.chars] at hread
  refine ⟨⟨x.negative, List.replicate m 0 ++ ds ++ List.replicate n 0, e + 1 - ds.length - n⟩, ?_,
    ⟨?_, rfl⟩, ?_⟩
  · rw [ascii_text hx]
    split
    · next hnegative =>
      rw [hnegative] at hread ⊢
      exact hread
    · next hpositive =>
      rw [Bool.not_eq_true] at hpositive
      rw [hpositive] at hread ⊢
      exact Scientific.read_of_readUnsigned hread
  · have hreads : Scientific.ReadsAs ⟨x.negative, ds, e + 1 - ds.length⟩ x :=
      Scientific.readsAs_iff.mpr ⟨rfl, isFinite_iff.mp hx, hds.covers⟩
    rw [hvalue]
    exact hreads.nearest
  · intro other hother
    rw [Scientific.precision, Decimal.significant_between_zeros]
    rcases Nat.eq_zero_or_pos x.index with hi | hi
    · simp [hds.zero hi]
    · -- the significant digits of the other decimal are a point of a grid
      obtain ⟨d, k, hnumber, hd⟩ := Decimal.exists_number_eq other.digits
      have hpoint : other.magnitude = d * width (other.power + k) := by
        rw [Scientific.magnitude, hnumber, width_add]
        push_cast
        ring
      have hother' := Scientific.covers_of_nearest hother hi
      rw [hpoint] at hother'
      exact (Decimal.length_significant_le ds).trans (hds.fewest hi d _ _ hother' hd)

/-! ### On the wire -/

theorem wireBytes_of_isFinite {x : Binary64} (hx : x.isFinite = true) :
    x.wireBytes = .ok (ascii x.text) := by
  simp [wireBytes, isNaN_of_isFinite hx, isInfinite_of_isFinite hx]

theorem wireBytes_of_isInfinite {x : Binary64} (hx : x.isInfinite = true) :
    x.wireBytes = .ok (if x.negative then negativeInfinity else positiveInfinity) := by
  have hnan : x.isNaN = false := isNaN_eq_false_iff.mpr (isInfinite_iff.mp hx).le
  simp [wireBytes, hnan, hx]

theorem isFinite_or_isInfinite {x : Binary64} (h : x.isNaN = false) :
    x.isFinite = true ∨ x.isInfinite = true := by
  rw [isFinite_iff, isInfinite_iff]
  exact (isNaN_eq_false_iff.mp h).lt_or_eq

/-- The words for infinity are no decimals. -/
theorem read_infinity (negative : Bool) :
    Scientific.read (if negative then negativeInfinity else positiveInfinity) = none := by
  cases negative
  · decide
  · decide

theorem infinity_inj {a b : Bool} (h : (if a then negativeInfinity else positiveInfinity) =
    if b then negativeInfinity else positiveInfinity) : a = b := by
  revert a b
  decide

theorem text_ne_infinity {x : Binary64} (hx : x.isFinite = true) (negative : Bool) :
    ascii x.text ≠ if negative then negativeInfinity else positiveInfinity := by
  intro h
  obtain ⟨t, hread, -⟩ := exists_read_text hx
  rw [h, read_infinity] at hread
  cases hread

/-- Different doubles have different texts on the wire. -/
theorem wireBytes_inj {x y : Binary64} {s : Bytes} (hx : x.wireBytes = .ok s)
    (hy : y.wireBytes = .ok s) : x = y := by
  rcases isFinite_or_isInfinite (isNaN_of_wireBytes hx) with hxfin | hxinf
  · rw [wireBytes_of_isFinite hxfin] at hx
    obtain rfl := Except.ok.inj hx
    rcases isFinite_or_isInfinite (isNaN_of_wireBytes hy) with hyfin | hyinf
    · rw [wireBytes_of_isFinite hyfin] at hy
      obtain ⟨t, hread, ht, -⟩ := exists_read_text hxfin
      obtain ⟨u, hread', hu, -⟩ := exists_read_text hyfin
      rw [Except.ok.inj hy, hread] at hread'
      obtain rfl := Option.some.inj hread'
      exact hu.unique ht
    · rw [wireBytes_of_isInfinite hyinf] at hy
      exact absurd (Except.ok.inj hy).symm (text_ne_infinity hxfin _)
  · rw [wireBytes_of_isInfinite hxinf] at hx
    obtain rfl := Except.ok.inj hx
    rcases isFinite_or_isInfinite (isNaN_of_wireBytes hy) with hyfin | hyinf
    · rw [wireBytes_of_isFinite hyfin] at hy
      exact absurd (Except.ok.inj hy) (text_ne_infinity hyfin _)
    · rw [wireBytes_of_isInfinite hyinf] at hy
      have hindex : x.index = y.index :=
        (isInfinite_iff.mp hxinf).trans (isInfinite_iff.mp hyinf).symm
      exact ext_index (infinity_inj (Except.ok.inj hy)).symm hindex

end Binary64

theorem Argument.ofFloat_eq_ok_iff {x : Binary64} {a : Argument} :
    Argument.ofFloat (.float x) = .ok a ↔ ∃ s, x.wireBytes = .ok s ∧ a = .blob s := by
  rw [Argument.ofFloat, Value.floatBytes]
  cases x.wireBytes with
  | error why => simp [Except.map]
  | ok s => simp [Except.map, eq_comm]

/-- Every double that is a number makes an argument. The text of a finite one is a decimal that
    reads as this double and as no other, and no decimal with fewer significant digits is rounded to
    it; the text of infinity is a word with a sign. So the same text is never that of two doubles,
    also not of the two zeros. -/
theorem float_text_exact (x : Binary64) (hnan : x.isNaN = false) :
    ∃ a, Argument.ofFloat (.float x) = .ok a ∧
      (x.isFinite = true → ∃ t, Scientific.read a.raw = some t ∧ t.ReadsAs x ∧
        (∀ y, t.ReadsAs y → y = x) ∧
        ∀ other : Scientific, Binary64.Nearest other.value x → t.precision ≤ other.precision) ∧
      (x.isInfinite = true → a.raw = ascii (if x.negative then "-inf" else "+inf")) ∧
      ∀ y b, Argument.ofFloat (.float y) = .ok b → (a.raw = b.raw ↔ x = y) := by
  obtain ⟨s, hs⟩ := Binary64.exists_wireBytes hnan
  refine ⟨.blob s, Argument.ofFloat_eq_ok_iff.mpr ⟨s, hs, rfl⟩, ?_, ?_, ?_⟩
  · intro hx
    rw [Binary64.wireBytes_of_isFinite hx] at hs
    obtain rfl := Except.ok.inj hs
    obtain ⟨t, hread, ht, hfewest⟩ := Binary64.exists_read_text hx
    exact ⟨t, hread, ht, fun y hy => ht.unique hy, hfewest⟩
  · intro hx
    rw [Binary64.wireBytes_of_isInfinite hx] at hs
    obtain rfl := Except.ok.inj hs
    cases x.negative
    · rfl
    · rfl
  · intro y b hb
    obtain ⟨s', hs', rfl⟩ := Argument.ofFloat_eq_ok_iff.mp hb
    constructor
    · intro heq
      obtain rfl : s = s' := heq
      exact Binary64.wireBytes_inj hs hs'
    · rintro rfl
      rw [hs] at hs'
      exact Except.ok.inj hs'

/-- Written out, the least double has 751 significant digits, but one is enough to tell it. -/
theorem float_text_exact_least : (⟨1⟩ : Binary64).isNaN = false ∧
    ∃ a t, Argument.ofFloat (.float ⟨1⟩) = .ok a ∧ Scientific.read a.raw = some t ∧
      t.ReadsAs ⟨1⟩ ∧ t.precision ≤ 1 := by
  obtain ⟨a, ha, hfinite, -⟩ := float_text_exact ⟨1⟩ (by decide)
  obtain ⟨t, hread, ht, -, hfewest⟩ := hfinite (by decide)
  have hfive : Scientific.ReadsAs ⟨false, [5], -324⟩ ⟨1⟩ :=
    Scientific.readsAs_iff.mpr ⟨by decide, by decide, Binary64.readsBack_iff.mp (by decide +kernel)⟩
  exact ⟨by decide, a, t, ha, hread, ht, hfewest _ hfive.nearest⟩

end CommandWire
