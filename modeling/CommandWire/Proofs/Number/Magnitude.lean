import Mathlib.Tactic.Linarith
import Mathlib.Tactic.NormNum
import Mathlib.Tactic.Ring
import CommandWire.Number.Binary64

/-! The magnitudes of doubles, in order.

    Every binade is a grid of 2⁵² equal steps, and the first one goes on with the steps of the
    subnormal numbers below it. From one binade to the next the step doubles:

        units    0 ······ 2⁵² ······ 2⁵³ · · · · 2⁵⁴  ·  ·  ·  ·  2⁵⁵
        step         1          1           2             4

    So at the start of a binade the step up is twice the step down, and everywhere else both are the
    same. Against the magnitude itself no step is small: two steps together, one up and one down,
    are more than 2 · 10⁻¹⁶ of it. -/

namespace CommandWire.Binary64

/-- The step from the magnitude at an index to the next one, in units. -/
def step (i : Nat) : Nat := 2 ^ (i / binade - 1)

theorem step_pos (i : Nat) : 0 < step i := Nat.two_pow_pos _

theorem binade_pos : 0 < binade := by decide

theorem units_of_lt {i : Nat} (h : i < 2 * binade) : units i = i := by
  rw [units]
  split
  · rfl
  · next hi =>
    have hdiv : i / binade = 1 := Nat.div_eq_of_lt_le (by omega) (by omega)
    have hmod := Nat.div_add_mod i binade
    rw [hdiv] at hmod ⊢
    simp only [Nat.sub_self, Nat.pow_eq, pow_zero]
    omega

/-- A magnitude of a binade, by the number of steps from zero. The end of a binade is the start of
    the next one. -/
theorem units_scaled {s r : Nat} (hlow : binade ≤ r) (hhigh : r ≤ 2 * binade) :
    units (s * binade + r) = r * 2 ^ s := by
  have hpos := binade_pos
  rcases Nat.lt_or_eq_of_le hhigh with hr | rfl
  · have hdiv : (s * binade + r) / binade = s + 1 :=
      Nat.div_eq_of_lt_le (by rw [Nat.add_mul]; omega) (by rw [Nat.add_mul, Nat.add_mul]; omega)
    have hmod := Nat.div_add_mod (s * binade + r) binade
    rw [hdiv, Nat.mul_comm, Nat.add_mul] at hmod
    rw [units, if_neg (by omega), hdiv, Nat.pow_eq, Nat.add_sub_cancel,
      show binade + (s * binade + r) % binade = r by omega]
  · have hsum : s * binade + 2 * binade = (s + 2) * binade := by rw [Nat.add_mul]
    have hge : ¬ (s + 2) * binade < binade := by
      rw [Nat.not_lt]
      exact Nat.le_mul_of_pos_left _ (by omega)
    rw [hsum, units, if_neg hge, Nat.mul_mod_left, Nat.mul_div_cancel _ hpos, Nat.pow_eq,
      show s + 2 - 1 = s + 1 by omega, pow_succ]
    ring

/-- Every index from the first binade on is a number of binades and a place in the last of them. -/
theorem exists_scaled {i : Nat} (h : binade ≤ i) :
    ∃ s r, binade ≤ r ∧ r < 2 * binade ∧ i = s * binade + r := by
  have hdiv : 1 ≤ i / binade := (Nat.one_le_div_iff binade_pos).mpr h
  have hmod := Nat.div_add_mod i binade
  have hlt := Nat.mod_lt i binade_pos
  refine ⟨i / binade - 1, binade + i % binade, by omega, by omega, ?_⟩
  obtain ⟨q, hq⟩ : ∃ q, i / binade = q + 1 := ⟨i / binade - 1, by omega⟩
  rw [hq, Nat.mul_comm, Nat.add_mul] at hmod
  rw [hq, Nat.add_sub_cancel]
  omega

theorem step_scaled {s r : Nat} (hlow : binade ≤ r) (hhigh : r < 2 * binade) :
    step (s * binade + r) = 2 ^ s := by
  have hdiv : (s * binade + r) / binade = s + 1 :=
    Nat.div_eq_of_lt_le (by rw [Nat.add_mul]; omega) (by rw [Nat.add_mul, Nat.add_mul]; omega)
  rw [step, hdiv, Nat.add_sub_cancel]

theorem units_succ (i : Nat) : units (i + 1) = units i + step i := by
  rcases Nat.lt_or_ge i binade with h | h
  · have hdiv : i / binade = 0 := Nat.div_eq_of_lt h
    rw [units_of_lt (by omega), units_of_lt (by omega), step, hdiv]
    simp
  · obtain ⟨s, r, hlow, hhigh, rfl⟩ := exists_scaled h
    rw [Nat.add_assoc, units_scaled (by omega) (by omega), units_scaled hlow (by omega),
      step_scaled hlow hhigh]
    ring

theorem units_strictMono : StrictMono units :=
  strictMono_nat_of_lt_succ fun i => by
    rw [units_succ]
    exact Nat.lt_add_of_pos_right (step_pos i)

@[simp] theorem units_zero : units 0 = 0 := rfl

theorem units_pos {i : Nat} (h : 0 < i) : 0 < units i := units_strictMono h

/-- A step is not wider than the magnitude where it starts. -/
theorem step_le_units {i : Nat} (hi : 0 < i) : step i ≤ units i := by
  rcases Nat.lt_or_ge i binade with h | h
  · rw [units_of_lt (by omega), step, Nat.div_eq_of_lt h]
    exact hi
  · obtain ⟨s, r, hlow, hhigh, rfl⟩ := exists_scaled h
    rw [units_scaled hlow hhigh.le, step_scaled hlow hhigh]
    exact Nat.le_mul_of_pos_left _ (binade_pos.trans_le hlow)

/-- Up to a double's precision, which is a little finer than sixteen digits, its neighbours are far
    away. -/
theorem units_lt_gap {i : Nat} (h : 0 < i) :
    2 * units i + units (i - 1) * 10 ^ 16 < units (i + 1) * 10 ^ 16 := by
  rcases Nat.lt_or_ge i (2 * binade) with hi | hi
  · -- the first two binades, where a unit is a step
    rw [units_of_lt hi, units_of_lt (by omega), units_succ, units_of_lt hi]
    have hstep := step_pos i
    have hbinade : binade = 4503599627370496 := rfl
    omega
  · obtain ⟨s, r, hlow, hhigh, rfl⟩ := exists_scaled (i := i) (by omega)
    obtain ⟨s, rfl⟩ : ∃ q, s = q + 1 := ⟨s - 1, by rcases s with _ | s <;> omega⟩
    have hup := units_scaled (s := s + 1) hlow hhigh.le
    have hnext := units_succ ((s + 1) * binade + r)
    rw [step_scaled hlow hhigh, hup] at hnext
    rw [hnext, hup]
    have hpow := Nat.two_pow_pos s
    have hbinade : binade = 4503599627370496 := rfl
    rcases Nat.lt_or_eq_of_le hlow with hr | rfl
    · have hdown : (s + 1) * binade + r - 1 = (s + 1) * binade + (r - 1) := by omega
      obtain ⟨r, rfl⟩ : ∃ q, r = q + 1 := ⟨r - 1, by omega⟩
      rw [hdown, Nat.add_sub_cancel, units_scaled (by omega) (by omega)]
      have hsmall : (r + 1) * 2 ^ (s + 1) < 10 ^ 16 * 2 ^ (s + 1) :=
        Nat.mul_lt_mul_of_pos_right (by omega) (Nat.two_pow_pos _)
      linarith
    · -- the start of a binade: the step down is half the step up
      have hdown : (s + 1) * binade + binade - 1 = s * binade + (2 * binade - 1) := by
        rw [Nat.add_mul]
        omega
      rw [hdown, units_scaled (by omega) (by omega), hbinade, pow_succ]
      omega

end CommandWire.Binary64
