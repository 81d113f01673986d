import Mathlib.Algebra.Order.Field.Power
import CommandWire.Proofs.Number.Interval

/-! Rounding to a double.

    A number is rounded to the finite double that is nearest to it; of two that are equally near,
    the one with the even significand is taken, and a number that lies half a step or more behind
    the greatest finite double is too large. Nothing here depends on how the nearest double is
    found.

        … ── greatest finite ──┃── 2¹⁰²⁴
                               └─ 2¹⁰²⁴ - 2⁹⁷⁰, from here on too large

    Rounding is symmetric, and on each side it comes to finding the index that covers the number. So
    there is at most one double of either sign, and both signs only for zero. -/

namespace CommandWire.Binary64

/-- The sign of a double, as a factor. -/
def sign (x : Binary64) : ℚ := if x.negative then -1 else 1

/-- The number that a finite double is. -/
def value (x : Binary64) : ℚ := x.sign * (units x.index / one)

/-- From here on, a magnitude is too large for a finite double. -/
def tooLarge : ℚ := 2 ^ 1024 - 2 ^ 970

/-- The double to which a number is rounded. The index and the significand of a double are both even
    or both odd. -/
structure Nearest (q : ℚ) (x : Binary64) : Prop where
  finite : x.isFinite = true
  inRange : |q| < tooLarge
  nearest : ∀ y : Binary64, y.isFinite = true → |q - x.value| ≤ |q - y.value|
  even : ∀ y : Binary64, y.isFinite = true → y.value ≠ x.value → |q - y.value| = |q - x.value| →
    x.index % 2 = 0

/-! ### Signs and indices -/

theorem ofIndex_negative_index (x : Binary64) : ofIndex x.negative x.index = x := by
  obtain ⟨bits⟩ := x
  have hlt := bits.toNat_lt
  have hbits : bits.toNat % signBit + (if signBit ≤ bits.toNat then signBit else 0) =
      bits.toNat := by
    rw [show signBit = 9223372036854775808 from rfl]
    split <;> omega
  simp only [ofIndex, negative, index, decide_eq_true_eq, hbits, UInt64.ofNat_toNat]

theorem toNat_bits_ofIndex (negative : Bool) {i : Nat} (h : i < signBit) :
    (ofIndex negative i).bits.toNat = i + if negative then signBit else 0 := by
  have hsign : signBit = 9223372036854775808 := rfl
  rw [ofIndex, UInt64.toNat_ofNat']
  split <;> omega

theorem index_ofIndex (negative : Bool) {i : Nat} (h : i < signBit) :
    (ofIndex negative i).index = i := by
  rw [index, toNat_bits_ofIndex negative h]
  cases negative
  · simp [Nat.mod_eq_of_lt h]
  · simp [Nat.mod_eq_of_lt h]

theorem negative_ofIndex (negative : Bool) {i : Nat} (h : i < signBit) :
    (ofIndex negative i).negative = negative := by
  rw [Binary64.negative, toNat_bits_ofIndex negative h]
  cases negative
  · simp [h]
  · simp

theorem infinityIndex_lt : infinityIndex < signBit := by decide

theorem isFinite_iff {x : Binary64} : x.isFinite = true ↔ x.index < infinityIndex := by
  simp [isFinite]

theorem isInfinite_iff {x : Binary64} : x.isInfinite = true ↔ x.index = infinityIndex := by
  simp [isInfinite]

theorem isNaN_eq_false_iff {x : Binary64} : x.isNaN = false ↔ x.index ≤ infinityIndex := by
  simp [isNaN]

theorem isNaN_of_isFinite {x : Binary64} (h : x.isFinite = true) : x.isNaN = false :=
  isNaN_eq_false_iff.mpr (isFinite_iff.mp h).le

theorem isInfinite_of_isFinite {x : Binary64} (h : x.isFinite = true) : x.isInfinite = false :=
  Bool.eq_false_iff.mpr (mt isInfinite_iff.mp (isFinite_iff.mp h).ne)

/-- Two doubles are the same if they have the same sign and the same index. -/
theorem ext_index {x y : Binary64} (hnegative : x.negative = y.negative)
    (hindex : x.index = y.index) : x = y := by
  rw [← ofIndex_negative_index x, hnegative, hindex, ofIndex_negative_index]

theorem sign_eq (x : Binary64) : x.sign = 1 ∨ x.sign = -1 := by
  rw [sign]
  cases x.negative
  · exact .inl rfl
  · exact .inr rfl

theorem sign_mul_self (x : Binary64) : x.sign * x.sign = 1 := by
  rcases sign_eq x with h | h <;> rw [h] <;> norm_num

theorem abs_sign (x : Binary64) : |x.sign| = 1 := by
  rcases sign_eq x with h | h <;> rw [h] <;> norm_num

theorem one_pos : 0 < one := by decide +kernel

theorem one_cast_pos : (0 : ℚ) < one := Nat.cast_pos.mpr one_pos

/-! ### The end of the range -/

theorem odd_last : (infinityIndex - 1) % 2 = 1 := by decide

theorem units_top (s : Nat) : (units (s * binade + (2 * binade - 1)) : ℚ) +
    units (s * binade + 2 * binade) = (2 ^ 54 - 1) * 2 ^ s := by
  rw [units_scaled (by decide) (by decide), units_scaled (by decide) le_rfl,
    show 2 * binade - 1 = 9007199254740991 from rfl, show 2 * binade = 9007199254740992 from rfl]
  push_cast
  ring

theorem two_pow_gap (m n : Nat) :
    (2 ^ 54 - 1) * (2 : ℚ) ^ (m + n + 1) = 2 * ((2 ^ (m + 54) - 2 ^ m) * 2 ^ n) := by
  rw [pow_add _ m 54, pow_add _ _ 1, pow_add]
  ring

theorem one_eq : one = 2 ^ 1074 := by decide +kernel

theorem cast_two_pow {m n : Nat} (h : m = 2 ^ n) : (m : ℚ) = 2 ^ n := by
  rw [h, Nat.cast_pow, Nat.cast_ofNat]

/-- The last interval of the finite magnitudes ends where numbers become too large. -/
theorem units_last : (units (infinityIndex - 1) : ℚ) + units infinityIndex =
    2 * (tooLarge * one) := by
  have hone : (one : ℚ) = 2 ^ 1074 := cast_two_pow one_eq
  rw [hone, tooLarge]
  exact (units_top 2045).trans (two_pow_gap 970 1074)

/-- An index is finite exactly if what it covers is not too large. -/
theorem Covers.finite_iff {i : Nat} {b : ℚ} (h : Covers i b) :
    i < infinityIndex ↔ b < tooLarge * one := by
  have hlast := units_last
  constructor
  · intro hi
    rcases Nat.lt_or_eq_of_le (Nat.le_sub_one_of_lt hi) with hlt | rfl
    · have hself : (units i : ℚ) < units (infinityIndex - 1) := units_lt_cast hlt
      have hnext : (units (i + 1) : ℚ) ≤ units (infinityIndex - 1) := units_le_cast hlt
      have hend : (units (infinityIndex - 1) : ℚ) ≤ units infinityIndex :=
        units_le_cast (Nat.sub_le _ _)
      linarith [h.high]
    · have hsucc : infinityIndex - 1 + 1 = infinityIndex := by decide
      have hhigh := (h.odd odd_last).2
      rw [hsucc] at hhigh
      linarith
  · intro hb
    by_contra hi
    have hself : (units infinityIndex : ℚ) ≤ units i := units_le_cast (by omega)
    have hpred : (units (infinityIndex - 1) : ℚ) ≤ units (i - 1) := units_le_cast (by omega)
    linarith [h.low]

/-! ### Rounding by index -/

/-- The distance of a number from a double, counted in units on the side of another one. -/
theorem dist_eq (x y : Binary64) (b : ℚ) :
    |x.sign * (b / one) - y.value| = |b - x.sign * y.sign * units y.index| / one := by
  have hone := one_cast_pos
  have hparts : x.sign * (b / one) - y.value =
      x.sign * ((b - x.sign * y.sign * units y.index) / one) := by
    rw [value, ← mul_div_assoc, ← mul_div_assoc, ← mul_div_assoc, ← sub_div, mul_sub,
      mul_assoc, ← mul_assoc x.sign x.sign, sign_mul_self, one_mul]
  rw [hparts, abs_mul, abs_sign, one_mul, abs_div, abs_of_pos hone]

theorem dist_same {x y : Binary64} (h : y.sign = x.sign) (b : ℚ) :
    |x.sign * (b / one) - y.value| = |b - units y.index| / one := by
  rw [dist_eq, h, sign_mul_self, one_mul]

theorem dist_opposite {x y : Binary64} (h : y.sign = -x.sign) {b : ℚ} (hb : 0 ≤ b) :
    |x.sign * (b / one) - y.value| = (b + units y.index) / one := by
  have hunits : (0 : ℚ) ≤ units y.index := Nat.cast_nonneg _
  rw [dist_eq, h, mul_neg, sign_mul_self, neg_one_mul, sub_neg_eq_add, abs_of_nonneg (by linarith)]

theorem sign_same_or_opposite (x y : Binary64) : y.sign = x.sign ∨ y.sign = -x.sign := by
  rcases sign_eq x with hx | hx <;> rcases sign_eq y with hy | hy <;> simp [hx, hy]

theorem abs_sign_mul (x : Binary64) {b : ℚ} (hb : 0 ≤ b) : |x.sign * (b / one)| = b / one := by
  have hdiv : 0 ≤ b / one := div_nonneg hb one_cast_pos.le
  rw [abs_mul, abs_sign, one_mul, abs_of_nonneg hdiv]

/-- The double on the same side at another index. -/
theorem exists_same_side (x : Binary64) {j : Nat} (hj : j < infinityIndex) :
    ∃ y : Binary64, y.isFinite = true ∧ y.sign = x.sign ∧ y.index = j := by
  have hlt : j < signBit := hj.trans infinityIndex_lt
  have hindex := index_ofIndex x.negative hlt
  exact ⟨ofIndex x.negative j, isFinite_iff.mpr (by rwa [hindex]),
    by rw [sign, sign, negative_ofIndex x.negative hlt], hindex⟩

theorem value_inj_of_sign {x y : Binary64} (hsign : y.sign = x.sign) (h : y.value = x.value) :
    y.index = x.index := by
  have hne : x.sign ≠ 0 := by rcases sign_eq x with h | h <;> rw [h] <;> norm_num
  rw [value, value, hsign, mul_right_inj' hne, div_left_inj' one_cast_pos.ne'] at h
  exact units_strictMono.injective (Nat.cast_injective h)

/-- Of two numbers, the larger one is as near as the smaller one from halfway on. -/
theorem dist_le_dist_iff {low high b : ℚ} (h : low < high) :
    |b - high| ≤ |b - low| ↔ low + high ≤ 2 * b := by
  rw [← sq_le_sq]
  constructor
  · intro hsq
    nlinarith
  · intro hle
    nlinarith

theorem dist_le_dist_iff' {low high b : ℚ} (h : low < high) :
    |b - low| ≤ |b - high| ↔ 2 * b ≤ low + high := by
  rw [← sq_le_sq]
  constructor
  · intro hsq
    nlinarith
  · intro hle
    nlinarith

/-- Compared with the finite magnitudes on its side, none is nearer than that of the double to which
    a number is rounded, and none is as near if its index is odd. -/
theorem Nearest.closest {x : Binary64} {b : ℚ} (h : Nearest (x.sign * (b / one)) x) {j : Nat}
    (hj : j < infinityIndex) :
    |b - units x.index| ≤ |b - units j| ∧
      (x.index % 2 = 1 → j ≠ x.index → |b - units j| ≠ |b - units x.index|) := by
  obtain ⟨y, hy, hsign, rfl⟩ := exists_same_side x hj
  have hself := @dist_same x x rfl b
  have hdist := dist_same hsign b
  have hle := h.nearest y hy
  rw [hself, hdist, div_le_div_iff_of_pos_right one_cast_pos] at hle
  refine ⟨hle, fun hodd hne heq => ?_⟩
  have hvalue : y.value ≠ x.value := fun hsame => hne (value_inj_of_sign hsign hsame)
  have heven := h.even y hy hvalue (by rw [hself, hdist, heq])
  omega

theorem Nearest.covers {x : Binary64} {b : ℚ} (hb : 0 ≤ b) (h : Nearest (x.sign * (b / one)) x) :
    Covers x.index b := by
  have hi := isFinite_iff.mp h.finite
  -- below, the neighbour is zero at the latest; above, there may be none that is finite
  have hbelow : (units (x.index - 1) : ℚ) + units x.index ≤ 2 * b ∧ (x.index % 2 = 1 →
      (units (x.index - 1) : ℚ) + units x.index < 2 * b) := by
    rcases Nat.eq_zero_or_pos x.index with h0 | hpos
    · simp [h0, hb]
    · have hlt : (units (x.index - 1) : ℚ) < units x.index := units_lt_cast (by omega)
      obtain ⟨hle, hne⟩ := h.closest (j := x.index - 1) (by omega)
      refine ⟨(dist_le_dist_iff hlt).mp hle, fun hodd => ?_⟩
      refine lt_of_le_of_ne ((dist_le_dist_iff hlt).mp hle) fun heq => ?_
      exact hne hodd (by omega) (((dist_le_dist_iff' hlt).mpr heq.ge).antisymm hle)
  have habove : 2 * b ≤ units x.index + units (x.index + 1) ∧ (x.index % 2 = 1 →
      2 * b < units x.index + units (x.index + 1)) := by
    rcases Nat.lt_or_ge (x.index + 1) infinityIndex with hnext | hlast
    · have hlt : (units x.index : ℚ) < units (x.index + 1) := units_lt_cast (by omega)
      obtain ⟨hle, hne⟩ := h.closest hnext
      refine ⟨(dist_le_dist_iff' hlt).mp hle, fun hodd => ?_⟩
      refine lt_of_le_of_ne ((dist_le_dist_iff' hlt).mp hle) fun heq => ?_
      exact hne hodd (by omega) (((dist_le_dist_iff hlt).mpr heq.ge).antisymm hle)
    · have hrange := h.inRange
      rw [abs_sign_mul x hb, div_lt_iff₀ one_cast_pos] at hrange
      have hend := units_last
      rw [show infinityIndex - 1 = x.index by omega,
        show infinityIndex = x.index + 1 by omega] at hend
      exact ⟨by linarith, fun _ => by linarith⟩
  exact ⟨hbelow.1, habove.1, fun hodd => ⟨hbelow.2 hodd, habove.2 hodd⟩⟩

/-- The doubles on the other side are as far as zero or farther. -/
theorem zero_le_dist_opposite {x y : Binary64} (h : y.sign = -x.sign) {b : ℚ} (hb : 0 ≤ b) :
    |b - units 0| / one ≤ |x.sign * (b / one) - y.value| := by
  have hy : (0 : ℚ) ≤ units y.index := Nat.cast_nonneg _
  rw [dist_opposite h hb, units_zero, Nat.cast_zero, sub_zero, abs_of_nonneg hb,
    div_le_div_iff_of_pos_right one_cast_pos]
  linarith

theorem nearest_of_covers {x : Binary64} {b : ℚ} (hb : 0 ≤ b) (hi : x.index < infinityIndex)
    (h : Covers x.index b) : Nearest (x.sign * (b / one)) x := by
  have hone := one_cast_pos
  have hself := @dist_same x x rfl b
  refine ⟨isFinite_iff.mpr hi, ?_, ?_, ?_⟩
  · rw [abs_sign_mul x hb, div_lt_iff₀ hone]
    exact h.finite_iff.mp hi
  · intro y _
    rw [hself]
    rcases sign_same_or_opposite x y with hsign | hsign
    · rw [dist_same hsign, div_le_div_iff_of_pos_right hone]
      exact (h.closest y.index).1
    · refine le_trans ?_ (zero_le_dist_opposite hsign hb)
      rw [div_le_div_iff_of_pos_right hone]
      exact (h.closest 0).1
  · intro y _ hvalue heq
    rw [hself] at heq
    rcases Nat.mod_two_eq_zero_or_one x.index with heven | hodd
    · exact heven
    · exfalso
      rcases sign_same_or_opposite x y with hsign | hsign
      · have hne : y.index ≠ x.index := by
          intro hindex
          exact hvalue (by rw [value, value, hsign, hindex])
        rw [dist_same hsign, div_left_inj' hone.ne'] at heq
        exact ((h.closest y.index).2 hodd hne).ne' heq
      · have hzero := zero_le_dist_opposite hsign hb
        have hlt := (h.closest 0).2 hodd (by omega)
        rw [heq, div_le_div_iff_of_pos_right hone] at hzero
        exact absurd hlt (not_lt.mpr hzero)

/-- A number on the side of a double is rounded to it exactly if its index covers the number. -/
theorem nearest_iff_covers {x : Binary64} {b : ℚ} (hb : 0 ≤ b) :
    Nearest (x.sign * (b / one)) x ↔ x.index < infinityIndex ∧ Covers x.index b := by
  constructor
  · intro h
    exact ⟨isFinite_iff.mp h.finite, h.covers hb⟩
  · rintro ⟨hi, h⟩
    exact nearest_of_covers hb hi h

/-- On the side of a number there is at most one double to which it is rounded. -/
theorem Nearest.unique {x y : Binary64} {b : ℚ} (hb : 0 ≤ b) (hx : Nearest (x.sign * (b / one)) x)
    (hy : Nearest (x.sign * (b / one)) y) (hnegative : y.negative = x.negative) : y = x := by
  have hsign : y.sign = x.sign := by rw [sign, sign, hnegative]
  rw [← hsign] at hy
  have hxc := ((nearest_iff_covers hb).mp hx).2
  have hyc := ((nearest_iff_covers hb).mp hy).2
  exact ext_index hnegative (hyc.unique hxc)

/-! ### Integers -/

/-- The index that an integer is rounded to, which may be that of infinity or lie past it. -/
theorem covers_integer (n : Int) : Covers (nearest (n.natAbs * one) 1) (n.natAbs * one) := by
  have h := @covers_nearest (n.natAbs * one) 1 (by decide)
  rwa [Nat.cast_one, div_one, Nat.cast_mul] at h

theorem integer_eq {n : Int} {x : Binary64} (h : x.negative = decide (n < 0)) :
    (n : ℚ) = x.sign * (n.natAbs * one / one) := by
  rw [mul_div_cancel_right₀ _ one_cast_pos.ne', sign, h]
  rcases lt_or_ge n 0 with hn | hn
  · have habs : n = -(n.natAbs : Int) := by omega
    rw [if_pos (decide_eq_true hn), neg_one_mul, ← Int.cast_natCast, ← Int.cast_neg, ← habs]
  · have habs : n = (n.natAbs : Int) := by omega
    rw [if_neg (by simpa using hn), one_mul, ← Int.cast_natCast, ← habs]

/-- An integer becomes the double that it is rounded to on its side; zero has no sign. -/
theorem ofInt?_eq_some_iff {n : Int} {x : Binary64} :
    ofInt? n = some x ↔ Nearest n x ∧ x.negative = decide (n < 0) := by
  have hb : (0 : ℚ) ≤ n.natAbs * one := by positivity
  have hcovers := covers_integer n
  rw [ofInt?]
  set i := nearest (n.natAbs * one) 1
  constructor
  · intro h
    split at h
    · next hi =>
      obtain rfl := Option.some.inj h
      have hlt : i < signBit := hi.trans infinityIndex_lt
      have hnegative := negative_ofIndex (decide (n < 0)) hlt
      refine ⟨?_, hnegative⟩
      rw [integer_eq hnegative, nearest_iff_covers hb, index_ofIndex _ hlt]
      exact ⟨hi, hcovers⟩
    · cases h
  · rintro ⟨hnearest, hnegative⟩
    rw [integer_eq hnegative, nearest_iff_covers hb] at hnearest
    obtain ⟨hi, hx⟩ := hnearest
    rw [hcovers.unique hx, if_pos hi, ← hnegative, ofIndex_negative_index]

theorem cast_gap (m n : Nat) : ((2 ^ m - 2 ^ n : Int) : ℚ) = 2 ^ m - 2 ^ n := by
  push_cast
  rfl

/-- The other integers are too large. -/
theorem ofInt?_eq_none_iff {n : Int} : ofInt? n = none ↔ (2 ^ 1024 - 2 ^ 970 : Int) ≤ |n| := by
  have habs : (n.natAbs : ℚ) = (|n| : Int) := by rw [Int.abs_eq_natAbs, Int.cast_natCast]
  have hfinite : nearest (n.natAbs * one) 1 < infinityIndex ↔ (|n| : Int) < tooLarge := by
    rw [(covers_integer n).finite_iff, habs, mul_lt_mul_iff_left₀ one_cast_pos]
  rw [← Int.cast_le (R := ℚ), cast_gap 1024 970, ← tooLarge, ← not_lt, ← hfinite, ofInt?]
  split
  · next hi => simp [hi]
  · next hi => simp [hi]

end CommandWire.Binary64
