import CommandWire.Number.Shortest
import CommandWire.Proofs.Number.Digits
import CommandWire.Proofs.Number.Rounding

/-! The shortest decimal that is rounded to a magnitude.

    The decimals with a given last place are a grid, and the search goes through the grids from the
    wide ones to the narrow ones:

        10 · 10ᴸ    0                             ┃ · ┃              nothing to be found before this
             10ᴸ    0           │           │     ┃ · ┃     │
                    ┆                             ┆   ┆
             10ᴷ    │ │ │ │ │ │ │ │ │ │ │ │ │ │ │ ┃│ ·┃│ │ │ │ │ │   taken
                    ┆
        10ᴸ / 10¹⁶                                                   always found by now

    A grid is passed over only if it has no point in the interval around the magnitude. So a decimal
    in the interval lies on a grid that is not wider than the one that was taken, and if it had
    fewer digits, a power of ten would lie between the two, which is a point of a wider grid. -/

namespace CommandWire.Binary64

/-- The distance of the decimals whose last digit stands for a multiple of `10ᵏ`, in units. -/
def width (k : Int) : ℚ := 10 ^ k * one

theorem width_pos (k : Int) : 0 < width k := mul_pos (zpow_pos (by norm_num) k) one_cast_pos

theorem width_mono {j k : Int} (h : j ≤ k) : width j ≤ width k :=
  mul_le_mul_of_nonneg_right (zpow_le_zpow_right₀ (by norm_num) h) one_cast_pos.le

theorem width_add (k : Int) (n : Nat) : width (k + n) = 10 ^ n * width k := by
  rw [width, width, zpow_add₀ (by norm_num), zpow_natCast]
  ring

theorem lt_of_width_lt {j k : Int} (h : width j < width k) : j < k := by
  by_contra hle
  exact absurd (width_mono (not_lt.mp hle)) (not_le.mpr h)

/-! ### Testing a decimal -/

/-- A power of ten as a fraction. -/
theorem ten_pow_toNat (k : Int) : (10 : ℚ) ^ k.toNat = 10 ^ k * 10 ^ (-k).toNat := by
  obtain ⟨n, rfl | rfl⟩ := k.eq_nat_or_neg
  · simp
  · simp

theorem compare_scaled {n den : Nat} {c : ℚ} (hden : 0 < den) (h : (n : ℚ) = c * den) (m : Nat) :
    (m * den ≤ n ↔ (m : ℚ) ≤ c) ∧ (n ≤ m * den ↔ c ≤ (m : ℚ)) := by
  have hden' : (0 : ℚ) < den := Nat.cast_pos.mpr hden
  rw [← @Nat.cast_le ℚ, ← @Nat.cast_le ℚ, h, Nat.cast_mul,
    mul_le_mul_iff_left₀ hden', mul_le_mul_iff_left₀ hden']
  exact ⟨Iff.rfl, Iff.rfl⟩

/-- The test of the search is whether the decimal lies in the interval. -/
theorem readsBack_iff {i d : Nat} {k : Int} : readsBack i d k = true ↔ Covers i (d * width k) := by
  have hden : 0 < 10 ^ (-k).toNat := by positivity
  have htwice : ((2 * (d * 10 ^ k.toNat) * one : ℕ) : ℚ) =
      2 * (d * width k) * (10 ^ (-k).toNat : ℕ) := by
    push_cast
    rw [ten_pow_toNat, width]
    ring
  obtain ⟨hlow, hlow'⟩ := compare_scaled hden htwice (units (i - 1) + units i)
  obtain ⟨hhigh', hhigh⟩ := compare_scaled hden htwice (units i + units (i + 1))
  rw [Nat.cast_add] at hlow hlow' hhigh hhigh'
  rw [readsBack, decimalRatio]
  simp only [Nat.pow_eq]
  split
  · next heven =>
    rw [Bool.and_eq_true, decide_eq_true_eq, decide_eq_true_eq, hlow, hhigh]
    constructor
    · rintro ⟨hl, hh⟩
      exact ⟨hl, hh, fun hodd => by omega⟩
    · rintro ⟨hl, hh, -⟩
      exact ⟨hl, hh⟩
  · next hodd =>
    rw [Bool.and_eq_true, decide_eq_true_eq, decide_eq_true_eq, ← not_le, ← not_le, hlow', hhigh',
      not_le, not_le]
    constructor
    · rintro ⟨hl, hh⟩
      exact ⟨hl.le, hh.le, fun _ => ⟨hl, hh⟩⟩
    · rintro ⟨-, -, h⟩
      exact h (by omega)

/-! ### One grid -/

/-- The number of the decimal below the magnitude at an index, on a grid. -/
def below (i : Nat) (k : Int) : Nat := units i * 10 ^ (-k).toNat / (one * 10 ^ k.toNat)

theorem below_bounds (i : Nat) (k : Int) :
    below i k * width k ≤ units i ∧ (units i : ℚ) < (below i k + 1) * width k := by
  have hden : 0 < one * 10 ^ k.toNat := Nat.mul_pos one_pos (by positivity)
  have hpow : (0 : ℚ) < (10 ^ (-k).toNat : ℕ) := by positivity
  have hwidth : ((one * 10 ^ k.toNat : ℕ) : ℚ) = width k * (10 ^ (-k).toNat : ℕ) := by
    push_cast
    rw [ten_pow_toNat, width]
    ring
  constructor
  · have hle : below i k * (one * 10 ^ k.toNat) ≤ units i * 10 ^ (-k).toNat :=
      Nat.div_mul_le_self _ _
    rw [← @Nat.cast_le ℚ, Nat.cast_mul, hwidth, Nat.cast_mul, ← mul_assoc] at hle
    exact le_of_mul_le_mul_right hle hpow
  · have hlt : units i * 10 ^ (-k).toNat < (below i k + 1) * (one * 10 ^ k.toNat) := by
      rw [Nat.mul_comm (below i k + 1)]
      exact Nat.lt_mul_div_succ _ hden
    rw [← @Nat.cast_lt ℚ, Nat.cast_mul, Nat.cast_mul, hwidth, Nat.cast_add_one,
      ← mul_assoc] at hlt
    exact lt_of_mul_lt_mul_right hlt hpow.le

theorem roundHalfEven_eq (num den : Nat) :
    roundHalfEven num den = num / den ∨ roundHalfEven num den = num / den + 1 := by
  rw [roundHalfEven_def]
  split_ifs
  · exact .inl rfl
  · exact .inr rfl
  · omega

/-- What is found on a grid is one of the two neighbours of the magnitude there, and lies in the
    interval. -/
theorem covers_gridPoint {i d : Nat} {k : Int} (h : gridPoint? i k = some d) :
    Covers i (d * width k) := by
  rw [← readsBack_iff]
  unfold gridPoint? at h
  dsimp only at h
  split at h
  · next hdown hup =>
    obtain rfl := Option.some.inj h
    rcases roundHalfEven_eq (units i * Nat.pow 10 (-k).toNat) (one * Nat.pow 10 k.toNat)
      with hd | hd
    · exact (congrArg (readsBack i · k) hd).trans hdown
    · exact (congrArg (readsBack i · k) hd).trans hup
  · next hdown _ =>
    obtain rfl := Option.some.inj h
    exact hdown
  · next _ hup =>
    obtain rfl := Option.some.inj h
    exact hup
  · cases h

theorem not_covers_below {i : Nat} {k : Int} (h : gridPoint? i k = none) :
    ¬ Covers i (below i k * width k) ∧ ¬ Covers i ((below i k + 1 : ℕ) * width k) := by
  rw [← readsBack_iff, ← readsBack_iff]
  unfold gridPoint? at h
  dsimp only at h
  split at h
  · cases h
  · cases h
  · cases h
  · next hdown hup => exact ⟨by simpa [below] using hdown, by simpa [below] using hup⟩

/-- If nothing is found on a grid, it has no decimal in the interval. -/
theorem not_covers_of_gridPoint_eq_none {i : Nat} {k : Int} (h : gridPoint? i k = none) (d : Nat) :
    ¬ Covers i (d * width k) := by
  intro hd
  obtain ⟨hdown, hup⟩ := not_covers_below h
  obtain ⟨hle, hlt⟩ := below_bounds i k
  have hself := covers_units i
  have hwidth := width_pos k
  rcases Nat.lt_or_ge (below i k) d with hgreater | hless
  · -- the neighbour above lies between the magnitude and the decimal
    have hcast : ((below i k + 1 : ℕ) : ℚ) ≤ d := Nat.cast_le.mpr hgreater
    refine hup (hself.between hd ?_ (mul_le_mul_of_nonneg_right hcast hwidth.le))
    push_cast
    exact hlt.le
  · have hcast : (d : ℚ) ≤ below i k := Nat.cast_le.mpr hless
    exact hdown (hd.between hself (mul_le_mul_of_nonneg_right hcast hwidth.le) hle)

/-- A grid with sixteen places behind the leading digit has a decimal in every interval. -/
theorem gridPoint_ne_none {i : Nat} {k : Int} (hi : 0 < i) (hk : width k * 10 ^ 16 ≤ units i) :
    gridPoint? i k ≠ none := by
  intro h
  obtain ⟨hdown, hup⟩ := not_covers_below h
  obtain ⟨hle, hlt⟩ := below_bounds i k
  have hprev : (units (i - 1) : ℚ) < units i := units_lt_cast (by omega)
  have hnext : (units i : ℚ) < units (i + 1) := units_lt_cast (Nat.lt_succ_self i)
  -- both neighbours on the grid lie outside, so the interval is not wider than the grid
  have hlow : 2 * (below i k * width k) ≤ units (i - 1) + units i := by
    by_contra hcon
    exact hdown ⟨by linarith, by linarith, fun _ => ⟨by linarith, by linarith⟩⟩
  have hhigh : units i + units (i + 1) ≤ 2 * ((below i k + 1) * width k) := by
    by_contra hcon
    refine hup ⟨?_, ?_, fun _ => ⟨?_, ?_⟩⟩ <;> push_cast <;> linarith
  have hgap : (2 * units i + units (i - 1) * 10 ^ 16 : ℚ) < units (i + 1) * 10 ^ 16 := by
    exact_mod_cast units_lt_gap hi
  linarith

/-! ### The search -/

/-- If one of the grids has something to be found, the search stops, and on no wider grid there was
    anything. -/
theorem searchGrids_spec {i fuel : Nat} {j k : Int} (hj : gridPoint? i j ≠ none) (hle : j ≤ k)
    (hfuel : k < j + fuel) :
    gridPoint? i (searchGrids i fuel k).2 = some (searchGrids i fuel k).1 ∧
      ∀ l, (searchGrids i fuel k).2 < l → l ≤ k → gridPoint? i l = none := by
  induction fuel generalizing k with
  | zero => omega
  | succ fuel ih =>
    rw [searchGrids]
    cases hk : gridPoint? i k with
    | some d =>
      dsimp only
      exact ⟨hk, fun l hlt hle => by omega⟩
    | none =>
      have hne : j ≠ k := by
        rintro rfl
        exact hj hk
      obtain ⟨hfound, hwider⟩ := ih (k := k - 1) (by omega) (by omega)
      refine ⟨hfound, fun l hlt hle => ?_⟩
      rcases eq_or_ne l k with rfl | hlk
      · exact hk
      · exact hwider l hlt (by omega)

theorem width_natCast (n : Nat) : width n = (10 ^ n * one : ℕ) := by
  rw [width, zpow_natCast]
  push_cast
  rfl

/-- The digits of a magnitude with some places behind the point tell where the leading one stands,
    if one unit has a digit there. -/
theorem leading_bounds {i places : Nat} {L : Int} (hi : 0 < i) (hplaces : one ≤ 10 ^ places)
    (hL : L = (Decimal.digits (units i * Nat.pow 10 places / one)).length - (places + 1)) :
    width L ≤ units i ∧ (units i : ℚ) < width (L + 1) := by
  rw [Nat.pow_eq] at hL
  have hpow : (0 : ℚ) < 10 ^ places := by positivity
  have hpos : 0 < units i * 10 ^ places / one :=
    Nat.div_pos (hplaces.trans (Nat.le_mul_of_pos_left _ (units_pos hi))) one_pos
  have hlength := Decimal.length_digits_pos (units i * 10 ^ places / one)
  have hlt := Decimal.lt_ten_pow_length (units i * 10 ^ places / one)
  have hle := mt (@Decimal.length_digits_le _
    ((Decimal.digits (units i * 10 ^ places / one)).length - 1) hpos) (by omega)
  set length := (Decimal.digits (units i * 10 ^ places / one)).length
  constructor
  · have hunits : 10 ^ (length - 1) * one ≤ units i * 10 ^ places :=
      (Nat.mul_le_mul_right _ (not_lt.mp hle)).trans (Nat.div_mul_le_self _ _)
    rw [← @Nat.cast_le ℚ, ← width_natCast,
      show ((length - 1 : ℕ) : ℤ) = L + places by omega, width_add] at hunits
    push_cast at hunits
    nlinarith
  · rw [Nat.div_lt_iff_lt_mul one_pos, ← @Nat.cast_lt ℚ, ← width_natCast,
      show (length : ℤ) = L + 1 + places by omega, width_add] at hlt
    push_cast at hlt
    nlinarith

theorem leadingExponent_bounds {i : Nat} (hi : 0 < i) :
    width (leadingExponent i) ≤ units i ∧ (units i : ℚ) < width (leadingExponent i + 1) := by
  -- the number of places has to stay a variable, or the power of it is evaluated
  obtain ⟨places, hplaces⟩ : ∃ places, places = 400 := ⟨400, rfl⟩
  have hone : one ≤ 10 ^ places := by
    subst hplaces
    decide +kernel
  refine leading_bounds hi hone ?_
  rw [leadingExponent, ← hplaces]
  omega

/-- A decimal of the interval lies on one of the grids that the search goes through, or on a
    narrower one. -/
theorem Covers.le_leadingExponent {i d : Nat} {k : Int} (h : Covers i (d * width k)) (hi : 0 < i) :
    0 < d ∧ k ≤ leadingExponent i + 1 := by
  have hwidth := width_pos k
  have hd : 0 < d := Nat.cast_pos.mp (pos_of_mul_pos_left (h.pos hi) hwidth.le)
  refine ⟨hd, Int.lt_add_one_iff.mp (lt_of_width_lt ?_)⟩
  have hone : (1 : ℚ) ≤ d := Nat.one_le_cast.mpr hd
  have hbelow := h.lt_two_mul hi
  have hlead := (leadingExponent_bounds hi).2
  have hten := width_add (leadingExponent i + 1) 1
  rw [Nat.cast_one, pow_one] at hten
  nlinarith

theorem gridPoint_shortest {i : Nat} (hi : 0 < i) :
    gridPoint? i (shortest i).2 = some (shortest i).1 ∧
      ∀ l, (shortest i).2 < l → l ≤ leadingExponent i + 1 → gridPoint? i l = none := by
  -- the last grid of the search
  have hlast : gridPoint? i (leadingExponent i - 16) ≠ none := by
    refine gridPoint_ne_none hi ?_
    have hlead := (leadingExponent_bounds hi).1
    have hshift := width_add (leadingExponent i - 16) 16
    rw [Nat.cast_ofNat, sub_add_cancel] at hshift
    linarith
  exact @searchGrids_spec i 18 _ (leadingExponent i + 1) hlast (by omega) (by omega)

/-- No decimal of the interval lies on a wider grid than the one that is found. -/
theorem Covers.le_shortest {i d : Nat} {k : Int} (h : Covers i (d * width k)) (hi : 0 < i) :
    k ≤ (shortest i).2 := by
  by_contra hlt
  have hgrid := (gridPoint_shortest hi).2 k (not_le.mp hlt) (h.le_leadingExponent hi).2
  exact not_covers_of_gridPoint_eq_none hgrid d h

/-- The decimal that is found lies in the interval, and every other one there has as many digits. -/
theorem shortest_spec {i : Nat} (hi : 0 < i) :
    Covers i ((shortest i).1 * width (shortest i).2) ∧
      ∀ (d : Nat) (k : Int) (n : Nat), Covers i (d * width k) → d < 10 ^ n →
        (shortest i).1 < 10 ^ n := by
  have hcovers := covers_gridPoint (gridPoint_shortest hi).1
  refine ⟨hcovers, fun d k n hd hn => ?_⟩
  have hk := hd.le_shortest hi
  by_contra hlong
  -- the power of ten between the two
  have hpower : Covers i ((1 : ℕ) * width ((shortest i).2 + n)) := by
    rw [Nat.cast_one, one_mul, width_add]
    refine hd.between hcovers ?_ ?_
    · have hcast : (d : ℚ) ≤ 10 ^ n := by exact_mod_cast hn.le
      exact mul_le_mul hcast (width_mono hk) (width_pos k).le (by positivity)
    · have hcast : (10 ^ n : ℚ) ≤ (shortest i).1 := by exact_mod_cast not_lt.mp hlong
      exact mul_le_mul_of_nonneg_right hcast (width_pos _).le
  have hpos := (hd.le_leadingExponent hi).1
  have hn0 : n ≠ 0 := by
    rintro rfl
    omega
  have hle := hpower.le_shortest hi
  omega

end CommandWire.Binary64
