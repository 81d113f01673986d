import Mathlib.Algebra.Order.Field.Basic
import Mathlib.Data.Rat.Cast.Order
import Mathlib.Tactic.FieldSimp
import CommandWire.Proofs.Number.Magnitude

/-! The numbers that a magnitude stands for.

    Around every magnitude lies an interval, up to half a step on both sides, and the intervals of
    neighbours meet at one number, which belongs to the one of them with the even index:

        units (i - 1)         units i           units (i + 1)
             │         ┃         │         ┃         │
                       └─ covered by i ────┘

    So every number that is not negative is covered by exactly one index, that of the magnitude to
    which it is the nearest. Numbers are counted in units here. -/

namespace CommandWire.Binary64

/-- Whether a number of units lies in the interval around the magnitude at an index. -/
structure Covers (i : Nat) (b : ℚ) : Prop where
  low : (units (i - 1) : ℚ) + units i ≤ 2 * b
  high : 2 * b ≤ units i + units (i + 1)
  odd : i % 2 = 1 → (units (i - 1) : ℚ) + units i < 2 * b ∧ 2 * b < units i + units (i + 1)

theorem units_le_cast {i j : Nat} (h : i ≤ j) : (units i : ℚ) ≤ units j :=
  Nat.cast_le.mpr (units_strictMono.monotone h)

theorem units_lt_cast {i j : Nat} (h : i < j) : (units i : ℚ) < units j :=
  Nat.cast_lt.mpr (units_strictMono h)

theorem units_pos_cast {i : Nat} (h : 0 < i) : (0 : ℚ) < units i := Nat.cast_pos.mpr (units_pos h)

theorem covers_units (i : Nat) : Covers i (units i) := by
  have hdown : (units (i - 1) : ℚ) ≤ units i := units_le_cast (Nat.sub_le i 1)
  have hup : (units i : ℚ) < units (i + 1) := units_lt_cast (Nat.lt_succ_self i)
  refine ⟨by linarith, by linarith, fun hodd => ⟨?_, by linarith⟩⟩
  have hlt : (units (i - 1) : ℚ) < units i := units_lt_cast (by omega)
  linarith

namespace Covers

variable {i j : Nat} {a b c : ℚ}

theorem pos (h : Covers i b) (hi : 0 < i) : 0 < b := by
  have hunits := units_pos_cast hi
  have hpred : (0 : ℚ) ≤ units (i - 1) := Nat.cast_nonneg _
  linarith [h.low]

theorem lt_two_mul (h : Covers i b) (hi : 0 < i) : b < 2 * units i := by
  have hunits := units_pos_cast hi
  have hnext : (units (i + 1) : ℚ) = units i + step i := by rw [units_succ, Nat.cast_add]
  have hstep : (step i : ℚ) ≤ units i := Nat.cast_le.mpr (step_le_units hi)
  linarith [h.high]

/-- There are no gaps in an interval. -/
theorem between (ha : Covers i a) (hc : Covers i c) (hab : a ≤ b) (hbc : b ≤ c) : Covers i b := by
  obtain ⟨hlow, -, hoddlow⟩ := ha
  obtain ⟨-, hhigh, hoddhigh⟩ := hc
  refine ⟨by linarith, by linarith, fun hodd => ⟨?_, ?_⟩⟩
  · linarith [(hoddlow hodd).1]
  · linarith [(hoddhigh hodd).2]

/-- No other magnitude is nearer, and none is as near if the index is odd. -/
theorem closest (h : Covers i b) (j : Nat) :
    |b - units i| ≤ |b - units j| ∧ (i % 2 = 1 → j ≠ i → |b - units i| < |b - units j|) := by
  obtain ⟨hlow, hhigh, hodd⟩ := h
  rcases Nat.lt_trichotomy j i with hj | rfl | hj
  · -- a smaller magnitude lies on the left
    have hj' : (units j : ℚ) ≤ units (i - 1) := units_le_cast (by omega)
    have hi : (units (i - 1) : ℚ) < units i := units_lt_cast (by omega)
    have hright : |b - units j| = b - units j := abs_of_nonneg (by linarith)
    rw [hright, abs_le, abs_lt]
    refine ⟨⟨by linarith, by linarith⟩, fun hi2 _ => ⟨by linarith [hodd hi2], by linarith⟩⟩
  · exact ⟨le_refl _, fun _ hne => absurd rfl hne⟩
  · have hj' : (units (i + 1) : ℚ) ≤ units j := units_le_cast hj
    have hi : (units i : ℚ) < units (i + 1) := units_lt_cast (Nat.lt_succ_self i)
    have hleft : |b - units j| = units j - b := by
      rw [abs_sub_comm]
      exact abs_of_nonneg (by linarith)
    rw [hleft, abs_le, abs_lt]
    refine ⟨⟨by linarith, by linarith⟩, fun hi2 _ => ⟨by linarith, by linarith [hodd hi2]⟩⟩

/-- Intervals that share a number are the same. -/
theorem unique (hi : Covers i b) (hj : Covers j b) : i = j := by
  wlog hij : i < j generalizing i j
  · rcases Nat.lt_or_eq_of_le (Nat.not_lt.mp hij) with hlt | heq
    · exact (this hj hi hlt).symm
    · exact heq.symm
  -- the end of the one is the start of the other, and both indices would be even
  have hup : (units (i + 1) : ℚ) ≤ units j := units_le_cast hij
  have hdown : (units i : ℚ) ≤ units (j - 1) := units_le_cast (by omega)
  have hend : 2 * b = units i + units (i + 1) := by linarith [hi.high, hj.low]
  have hstart : (units (j - 1) : ℚ) + units j = 2 * b := by linarith [hi.high, hj.low]
  have hnext : (units (i + 1) : ℚ) = units j := by linarith
  have hj1 : j = i + 1 := (units_strictMono.injective (Nat.cast_inj.mp hnext)).symm
  rcases Nat.mod_two_eq_zero_or_one i with heven | hodd
  · exact absurd (hj.odd (by omega)).1 (by linarith)
  · exact absurd (hi.odd hodd).2 (by linarith)

end Covers

/-! ### Finding the index -/

theorem roundHalfEven_def (num den : Nat) : roundHalfEven num den =
    if 2 * (num % den) < den then num / den
    else if den < 2 * (num % den) then num / den + 1 else num / den + num / den % 2 := rfl

/-- A rounded quotient is off by half at most, and by less if it is odd. -/
theorem roundHalfEven_near (num : Nat) {den : Nat} (hden : 0 < den) :
    (2 * (roundHalfEven num den : ℚ) ≤ 2 * (num / den) + 1 ∧
      2 * (num / den : ℚ) ≤ 2 * roundHalfEven num den + 1) ∧
    (roundHalfEven num den % 2 = 1 →
      2 * (roundHalfEven num den : ℚ) < 2 * (num / den) + 1 ∧
        2 * (num / den : ℚ) < 2 * roundHalfEven num den + 1) := by
  have hden' : (0 : ℚ) < den := Nat.cast_pos.mpr hden
  have hquot : (num / den : ℚ) = (num / den : ℕ) + (num % den : ℕ) / den := by
    rw [eq_comm, ← sub_eq_zero]
    have hsum : (den * (num / den : ℕ) + (num % den : ℕ) : ℚ) = num := by
      exact_mod_cast Nat.div_add_mod num den
    field_simp
    linarith
  -- the rest of the division, as a part of one
  have hnonneg : (0 : ℚ) ≤ (num % den : ℕ) / den := by positivity
  have hone : ((num % den : ℕ) / den : ℚ) < 1 :=
    (div_lt_one hden').mpr (Nat.cast_lt.mpr (Nat.mod_lt num hden))
  have hhalf : ((num % den : ℕ) / den : ℚ) < 1 / 2 ↔ 2 * (num % den) < den := by
    rw [div_lt_div_iff₀ hden' two_pos, ← @Nat.cast_lt ℚ]
    push_cast
    constructor <;> intro h <;> linarith
  have hmore : (1 / 2 : ℚ) < (num % den : ℕ) / den ↔ den < 2 * (num % den) := by
    rw [div_lt_div_iff₀ two_pos hden', ← @Nat.cast_lt ℚ]
    push_cast
    constructor <;> intro h <;> linarith
  rw [roundHalfEven_def, hquot]
  split_ifs with hlow hhigh
  · rw [← hhalf] at hlow
    exact ⟨⟨by linarith, by linarith⟩, fun _ => ⟨by linarith, by linarith⟩⟩
  · rw [← hmore] at hhigh
    push_cast
    exact ⟨⟨by linarith, by linarith⟩, fun _ => ⟨by linarith, by linarith⟩⟩
  · -- halfway: the even neighbour is taken
    rw [← hhalf, not_lt] at hlow
    rw [← hmore, not_lt] at hhigh
    rcases Nat.mod_two_eq_zero_or_one (num / den) with heven | hodd
    · rw [heven, Nat.add_zero]
      exact ⟨⟨by linarith, by linarith⟩, fun h => by omega⟩
    · rw [hodd]
      push_cast
      exact ⟨⟨by linarith, by linarith⟩, fun h => by omega⟩

theorem two_pow_le_step {s r : Nat} (hr : s = 0 ∨ binade ≤ r) : 2 ^ s ≤ step (s * binade + r) := by
  refine Nat.pow_le_pow_right (by decide) ?_
  rcases hr with rfl | hr
  · exact Nat.zero_le _
  · have hdiv : s + 1 ≤ (s * binade + r) / binade :=
      (Nat.le_div_iff_mul_le binade_pos).mpr (by rw [Nat.add_mul]; omega)
    omega

/-- The magnitude before one in the middle of a binade is a step of that binade away. -/
theorem units_pred_scaled {s r : Nat} (hr : r ≤ 2 * binade) (hpos : 0 < r)
    (hmid : s = 0 ∨ binade < r) :
    units (s * binade + r - 1) + 2 ^ s = units (s * binade + r) := by
  obtain ⟨r, rfl⟩ : ∃ q, r = q + 1 := ⟨r - 1, by omega⟩
  rw [show s * binade + (r + 1) = s * binade + r + 1 by omega, Nat.add_sub_cancel, units_succ]
  rcases hmid with rfl | hmid
  · rw [Nat.zero_mul, Nat.zero_add, step]
    have hdiv : r / binade < 2 := Nat.div_lt_of_lt_mul (by omega)
    rw [show r / binade - 1 = 0 by omega]
  · rw [step_scaled (by omega) (by omega)]

theorem mod_two_scaled (s r : Nat) : (s * binade + r) % 2 = r % 2 := by
  have heven : s * binade = 2 * (s * 2251799813685248) := by
    rw [show binade = 2 * 2251799813685248 from rfl]
    ring
  omega

section Scaled

variable {s r : Nat} (hr : r ≤ 2 * binade) (hs : s = 0 ∨ binade ≤ r)

include hr hs

theorem units_scaled_cast : (units (s * binade + r) : ℚ) = r * 2 ^ s := by
  rcases hs with rfl | hlow
  · rcases Nat.lt_or_eq_of_le hr with hlt | rfl
    · simp [units_of_lt hlt]
    · rw [units_scaled (by omega) le_rfl]
      push_cast
      ring
  · rw [units_scaled hlow hr]
    push_cast
    ring

theorem le_units_succ_cast : ((r + 1) * 2 ^ s : ℚ) ≤ units (s * binade + r + 1) := by
  have hstep : ((2 ^ s : ℕ) : ℚ) ≤ step (s * binade + r) := Nat.cast_le.mpr (two_pow_le_step hs)
  push_cast at hstep
  rw [units_succ, Nat.cast_add, units_scaled_cast hr hs]
  linarith

/-- The step down is a whole one of the binade, but not at its start, and zero has none. -/
theorem units_pred_cast :
    (units (s * binade + r - 1) : ℚ) = (r - 1) * 2 ^ s ∨ r = 0 ∨ s ≠ 0 ∧ r = binade := by
  rcases Nat.eq_zero_or_pos r with h0 | hpos
  · exact .inr (.inl h0)
  · by_cases hmid : s = 0 ∨ binade < r
    · left
      have hpred := units_pred_scaled hr hpos hmid
      rw [← Nat.cast_inj (R := ℚ), units_scaled_cast hr hs] at hpred
      push_cast at hpred
      linarith
    · rw [not_or, Nat.not_lt] at hmid
      exact .inr (.inr ⟨hmid.1, hmid.2.antisymm (hs.resolve_left hmid.1)⟩)

end Scaled

/-- A number that is rounded on the grid of its own binade is covered by what it is rounded to. -/
theorem covers_scaled {s r : Nat} {c : ℚ} (hr : r ≤ 2 * binade) (hnonneg : 0 ≤ c)
    (hbinade : s = 0 ∨ binade ≤ r ∧ (binade : ℚ) ≤ c)
    (hnear : 2 * (r : ℚ) ≤ 2 * c + 1 ∧ 2 * c ≤ 2 * r + 1)
    (hodd : r % 2 = 1 → 2 * (r : ℚ) < 2 * c + 1 ∧ 2 * c < 2 * r + 1) :
    Covers (s * binade + r) (c * 2 ^ s) := by
  have hpow : (0 : ℚ) < 2 ^ s := by positivity
  have hs := hbinade.imp_right And.left
  have hunits := units_scaled_cast hr hs
  have hup := le_units_succ_cast hr hs
  have hpred : (units (s * binade + r - 1) : ℚ) ≤ units (s * binade + r) :=
    units_le_cast (Nat.sub_le _ _)
  -- where the step down is not a whole one, the number was not rounded up, and the index is even
  have hdown : (units (s * binade + r - 1) : ℚ) = (r - 1) * 2 ^ s ∨ r % 2 = 0 ∧ (r : ℚ) ≤ c := by
    refine (units_pred_cast hr hs).imp_right fun hstart => ?_
    rcases hstart with rfl | ⟨hs0, rfl⟩
    · simpa using hnonneg
    · exact ⟨rfl, (hbinade.resolve_left hs0).2⟩
  rw [hunits] at hpred
  refine ⟨?_, ?_, fun h => ?_⟩
  · rw [hunits]
    rcases hdown with hdown | ⟨-, hc⟩
    · rw [hdown]
      nlinarith [hnear.1]
    · nlinarith
  · rw [hunits]
    nlinarith [hnear.2]
  · rw [mod_two_scaled] at h
    obtain ⟨hbelow, habove⟩ := hodd h
    rw [hunits]
    rcases hdown with hdown | ⟨heven, -⟩
    · rw [hdown]
      exact ⟨by nlinarith, by nlinarith⟩
    · omega

/-- The binade of a quotient of units, by its logarithm: on the grid of this binade the quotient has
    53 binary digits, or it lies below the second binade. -/
theorem scale_bounds (num : Nat) {den : Nat} (hden : 0 < den) :
    let s := Nat.log2 (num / den) - 52
    (num / den : ℚ) < 2 * binade * 2 ^ s ∧ (s = 0 ∨ (binade * 2 ^ s : ℚ) ≤ num / den) := by
  intro s
  have hden' : (0 : ℚ) < den := Nat.cast_pos.mpr hden
  constructor
  · have hlog : num / den < 2 ^ (Nat.log2 (num / den) + 1) := Nat.lt_log2_self
    have hpow : 2 ^ (Nat.log2 (num / den) + 1) ≤ 2 * binade * 2 ^ s := by
      rw [show 2 * binade = 2 ^ 53 by decide, ← pow_add]
      exact Nat.pow_le_pow_right (by decide) (by omega)
    have hlt := (Nat.div_lt_iff_lt_mul hden).mp (hlog.trans_le hpow)
    rw [div_lt_iff₀ hden']
    exact_mod_cast hlt
  · rcases Nat.eq_zero_or_pos s with h0 | hpos
    · exact .inl h0
    · right
      have hne : num / den ≠ 0 := by
        intro h0
        have hlog : Nat.log2 (num / den) = 0 := by rw [h0]; decide
        omega
      have hlog : 2 ^ Nat.log2 (num / den) ≤ num / den := Nat.log2_self_le hne
      have hpow : binade * 2 ^ s = 2 ^ Nat.log2 (num / den) := by
        rw [show binade = 2 ^ 52 by decide, ← pow_add]
        congr 1
        omega
      rw [← hpow, Nat.le_div_iff_mul_le hden] at hlog
      rw [le_div_iff₀ hden']
      exact_mod_cast hlog

/-- Rounding a quotient of units finds the index that covers it. -/
theorem covers_nearest (num : Nat) {den : Nat} (hden : 0 < den) :
    Covers (nearest num den) (num / den) := by
  obtain ⟨hlt, hle⟩ := scale_bounds num hden
  set s := Nat.log2 (num / den) - 52
  have hpow : (0 : ℚ) < 2 ^ s := by positivity
  have hscale : (num / (den * 2 ^ s : ℕ) : ℚ) * 2 ^ s = num / den := by
    push_cast
    field_simp
  obtain ⟨hnear, hodd⟩ := @roundHalfEven_near num (den * 2 ^ s) (by positivity)
  have hnearest : nearest num den = s * binade + roundHalfEven num (den * 2 ^ s) := rfl
  rw [hnearest, ← hscale]
  rw [← hscale] at hlt hle
  set c : ℚ := num / (den * 2 ^ s : ℕ)
  set r := roundHalfEven num (den * 2 ^ s)
  have hc : c < 2 * binade := lt_of_mul_lt_mul_right hlt hpow.le
  refine covers_scaled ?_ (by positivity) ?_ hnear hodd
  · have hcast : (r : ℚ) < (2 * binade + 1 : ℕ) := by
      push_cast
      linarith [hnear.1]
    exact Nat.lt_succ_iff.mp (Nat.cast_lt.mp hcast)
  · refine hle.imp_right fun hle => ?_
    have hcle : (binade : ℚ) ≤ c := le_of_mul_le_mul_right hle hpow
    have hcast : (binade : ℚ) < (r + 1 : ℕ) := by
      push_cast
      linarith [hnear.2]
    exact ⟨Nat.lt_succ_iff.mp (Nat.cast_lt.mp hcast), hcle⟩

end CommandWire.Binary64
