import Mathlib.Data.List.DropRight
import Mathlib.Data.Nat.Digits.Lemmas
import CommandWire.Number.Decimal

/-! Digits, and the number for which they stand.

    Zeros at the front say nothing, and zeros at the end only move the rest by so many places. What
    is left without both are the significant digits:

        0 0 4 0 2 0 0 0
            └───┘

    So a number with few significant digits is a small one, moved. -/

namespace CommandWire.Decimal

/-- The number for which digits stand, the most significant first. -/
def number (ds : List (Fin 10)) : Nat := Nat.ofDigits 10 (ds.reverse.map Fin.val)

/-- The digits without the zeros at both ends. -/
def significant (ds : List (Fin 10)) : List (Fin 10) := (ds.dropWhile (· == 0)).rdropWhile (· == 0)

theorem number_append (ds es : List (Fin 10)) :
    number (ds ++ es) = number ds * 10 ^ es.length + number es := by
  rw [number, List.reverse_append, List.map_append, Nat.ofDigits_append, List.length_map,
    List.length_reverse, number, number]
  ring

@[simp] theorem number_zeros (n : Nat) : number (List.replicate n 0) = 0 := by
  rw [number, List.reverse_replicate, List.map_replicate]
  exact Nat.ofDigits_replicate_zero

theorem number_lt (ds : List (Fin 10)) : number ds < 10 ^ ds.length := by
  have h := @Nat.ofDigits_lt_base_pow_length 10 (ds.reverse.map Fin.val) (by decide) (by simp)
  rwa [List.length_map, List.length_reverse] at h

/-- Zeros around digits move their number by the places at the end. -/
theorem number_between_zeros (m n : Nat) (ds : List (Fin 10)) :
    number (List.replicate m 0 ++ ds ++ List.replicate n 0) = number ds * 10 ^ n := by
  simp [number_append]

/-! ### Significant digits -/

/-- Zeros around digits are not significant. -/
theorem significant_between_zeros (m n : Nat) (ds : List (Fin 10)) :
    significant (List.replicate m 0 ++ ds ++ List.replicate n 0) = significant ds := by
  have hback (l : List (Fin 10)) :
      (l ++ List.replicate n 0).rdropWhile (· == 0) = l.rdropWhile (· == 0) := by
    simp [List.rdropWhile]
  have hfront : (List.replicate m 0 ++ ds ++ List.replicate n 0).dropWhile (· == 0) =
      (ds ++ List.replicate n 0).dropWhile (· == 0) := by
    simp [List.dropWhile_append]
  rw [significant, significant, hfront, List.dropWhile_append]
  split
  · next hzero =>
    rw [List.isEmpty_iff.mp hzero]
    simp
  · exact hback _

theorem length_significant_le (ds : List (Fin 10)) : (significant ds).length ≤ ds.length :=
  (List.rdropWhile_prefix _ _).length_le.trans (List.dropWhile_suffix _).length_le

theorem eq_zeros {ds : List (Fin 10)} (h : ∀ d ∈ ds, d = 0) : ds = List.replicate ds.length 0 :=
  List.eq_replicate_iff.mpr ⟨rfl, h⟩

/-- Digits are the significant ones between zeros. -/
theorem exists_eq_significant (ds : List (Fin 10)) :
    ∃ m n, ds = List.replicate m 0 ++ significant ds ++ List.replicate n 0 := by
  have hfront := eq_zeros fun d (hd : d ∈ ds.takeWhile (· == 0)) => by
    simpa using List.mem_takeWhile_imp hd
  have hback := eq_zeros fun d (hd : d ∈ (ds.dropWhile (· == 0)).rtakeWhile (· == 0)) => by
    simpa using List.mem_rtakeWhile_imp hd
  refine ⟨(ds.takeWhile (· == 0)).length, ((ds.dropWhile (· == 0)).rtakeWhile (· == 0)).length, ?_⟩
  rw [List.append_assoc, significant, ← hback, List.rdropWhile_append_rtakeWhile, ← hfront,
    List.takeWhile_append_dropWhile]

/-- With so many significant digits, a number is below that power of ten, but for its place. -/
theorem exists_number_eq (ds : List (Fin 10)) :
    ∃ m n, number ds = m * 10 ^ n ∧ m < 10 ^ (significant ds).length := by
  obtain ⟨m, n, hds⟩ := exists_eq_significant ds
  refine ⟨number (significant ds), n, ?_, number_lt _⟩
  rw [← number_between_zeros m n, ← hds]

/-! ### The digits of a number -/

theorem digits_eq_reverse {n : Nat} (h : 0 < n) : digits n = (Nat.digits 10 n).reverse := by
  induction n using digits.induct with
  | case1 n hn => rw [digits_of_lt hn, Nat.digits_of_lt 10 n h.ne' hn, List.reverse_singleton]
  | case2 n hn ih =>
    rw [digits_of_le (by omega), ih (by omega), Nat.digits_def' (by decide) h, List.reverse_cons]

theorem lt_ten_pow_length (n : Nat) : n < 10 ^ (digits n).length := by
  rcases Nat.eq_zero_or_pos n with rfl | h
  · simp
  · rw [digits_eq_reverse h, List.length_reverse]
    exact Nat.lt_base_pow_length_digits (by decide)

/-- The first digit is not zero. -/
theorem length_digits_le {n k : Nat} (h : 0 < n) (hn : n < 10 ^ k) : (digits n).length ≤ k := by
  rw [digits_eq_reverse h, List.length_reverse]
  exact (Nat.digits_length_le_iff (by decide) n).mpr hn

theorem length_digits_pos (n : Nat) : 0 < (digits n).length := by
  rw [digits]
  split
  · simp
  · simp

/-- The digits of a number stand for it. -/
theorem exists_number_digits (n : Nat) : ∃ ds, ds.map Fin.val = digits n ∧ number ds = n := by
  have hval : ((digits n).pmap Fin.mk fun _ => lt_of_mem_digits).map Fin.val = digits n := by
    rw [List.map_pmap]
    simp
  refine ⟨_, hval, ?_⟩
  rw [number, List.map_reverse, hval]
  rcases Nat.eq_zero_or_pos n with rfl | h
  · rw [digits_of_lt (by decide)]
    rfl
  · rw [digits_eq_reverse h, List.reverse_reverse, Nat.ofDigits_digits]

end CommandWire.Decimal
