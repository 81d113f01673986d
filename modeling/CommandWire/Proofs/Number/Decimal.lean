import Mathlib.Data.List.Basic
import Mathlib.Data.List.Induction
import CommandWire.Number.Decimal

/-! A decimal is read back exactly from what was written, and nothing else is read.

    A number is written by its last digit behind the decimal of the rest, and read by a left fold
    that appends one digit at a time, so both directions follow the string from its end. `readNat`
    accepts the canonical decimals and no other bytes. -/

namespace CommandWire.Decimal

theorem natBytes_of_lt {n : Nat} (h : n < 10) : natBytes n = [UInt8.ofNat (48 + n)] := by
  rw [natBytes, digits_of_lt h]; rfl

theorem natBytes_of_le {n : Nat} (h : 10 ≤ n) :
    natBytes n = natBytes (n / 10) ++ [UInt8.ofNat (48 + n % 10)] := by
  rw [natBytes, digits_of_le h, List.map_append]; rfl

@[simp] theorem intBytes_natCast (n : Nat) : intBytes (n : Int) = natBytes n := rfl

theorem toNat_digit {d : Nat} (h : d < 10) : (UInt8.ofNat (48 + d)).toNat = 48 + d := by
  rw [UInt8.toNat_ofNat']; omega

/-- A decimal has only ASCII digits. -/
theorem isDigit_of_mem_natBytes {n : Nat} {b : UInt8} (h : b ∈ natBytes n) :
    48 ≤ b.toNat ∧ b.toNat ≤ 57 := by
  obtain ⟨d, hd, rfl⟩ := List.mem_map.mp h
  have hlt := lt_of_mem_digits hd
  rw [toNat_digit hlt]
  omega

theorem natBytes_ne_nil (n : Nat) : natBytes n ≠ [] := by
  rcases Nat.lt_or_ge n 10 with h | h
  · rw [natBytes_of_lt h]; exact List.cons_ne_nil _ _
  · rw [natBytes_of_le h]; exact List.append_ne_nil_of_right_ne_nil _ (List.cons_ne_nil _ _)

/-- The decimal of a positive number starts with another digit than zero. -/
theorem head?_natBytes_ne {n : Nat} (h : 0 < n) : (natBytes n).head? ≠ some 48 := by
  induction n using digits.induct with
  | case1 n hn =>
    rw [natBytes_of_lt hn]
    intro heq
    have hb : UInt8.ofNat (48 + n) = 48 := by simpa using heq
    have hval := congrArg UInt8.toNat hb
    rw [toNat_digit hn] at hval
    have h48 : (48 : UInt8).toNat = 48 := rfl
    omega
  | case2 n hn ih =>
    rw [natBytes_of_le (by omega), List.head?_append_of_ne_nil _ (natBytes_ne_nil _)]
    exact ih (by omega)

/-! ### Reading a digit -/

theorem push_digit (m : Nat) {d : Nat} (h : d < 10) :
    push (some m) (UInt8.ofNat (48 + d)) = some (10 * m + d) := by
  have hd : 48 ≤ UInt8.ofNat (48 + d) ∧ UInt8.ofNat (48 + d) ≤ 57 := by
    rw [UInt8.le_iff_toNat_le, UInt8.le_iff_toNat_le, toNat_digit h]
    have h48 : (48 : UInt8).toNat = 48 := rfl
    have h57 : (57 : UInt8).toNat = 57 := rfl
    omega
  rw [push, if_pos hd, Option.map_some, toNat_digit h, Nat.add_sub_cancel_left]

/-- What a byte has to be that a value was read up to: the digit of the last place. -/
theorem push_eq_some {value : Option Nat} {b : UInt8} {n : Nat} (h : push value b = some n) :
    ∃ m d, d < 10 ∧ value = some m ∧ b = UInt8.ofNat (48 + d) ∧ n = 10 * m + d := by
  unfold push at h
  split at h
  · next hb =>
    obtain ⟨m, rfl, rfl⟩ := Option.map_eq_some_iff.mp h
    rw [UInt8.le_iff_toNat_le, UInt8.le_iff_toNat_le] at hb
    have h48 : (48 : UInt8).toNat = 48 := rfl
    have h57 : (57 : UInt8).toNat = 57 := rfl
    refine ⟨m, b.toNat - 48, by omega, rfl, ?_, rfl⟩
    have hadd : 48 + (b.toNat - 48) = b.toNat := by omega
    rw [hadd, UInt8.ofNat_toNat]
  · exact absurd h (by simp)

/-! ### Reading a number -/

theorem foldl_push_natBytes (n : Nat) : (natBytes n).foldl push (some 0) = some n := by
  induction n using digits.induct with
  | case1 n hn =>
    rw [natBytes_of_lt hn, List.foldl_cons, List.foldl_nil, push_digit 0 hn, Nat.mul_zero,
      Nat.zero_add]
  | case2 n hn ih =>
    rw [natBytes_of_le (by omega), List.foldl_append, ih, List.foldl_cons, List.foldl_nil,
      push_digit _ (Nat.mod_lt n (by omega)), Nat.div_add_mod]

/-- Digits without a leading zero are the decimal of their value, which is positive. -/
theorem eq_natBytes_of_foldl_push {s : Bytes} {n : Nat} (hne : s ≠ []) (hhead : s.head? ≠ some 48)
    (h : s.foldl push (some 0) = some n) : 0 < n ∧ s = natBytes n := by
  induction s using List.reverseRecOn generalizing n with
  | nil => exact absurd rfl hne
  | append_singleton t b ih =>
    rw [List.foldl_append, List.foldl_cons, List.foldl_nil] at h
    obtain ⟨m, d, hd, hm, rfl, rfl⟩ := push_eq_some h
    rcases eq_or_ne t [] with rfl | ht
    · -- one digit, which is not zero
      have hm0 : m = 0 := by simpa using hm.symm
      subst hm0
      have hpos : d ≠ 0 := by rintro rfl; exact hhead rfl
      rw [Nat.mul_zero, Nat.zero_add, natBytes_of_lt hd]
      exact ⟨by omega, rfl⟩
    · rw [List.head?_append_of_ne_nil _ ht] at hhead
      obtain ⟨hpos, htm⟩ := ih ht hhead hm
      have hdiv : (10 * m + d) / 10 = m := by omega
      have hmod : (10 * m + d) % 10 = d := by omega
      refine ⟨by omega, ?_⟩
      rw [natBytes_of_le (by omega), hdiv, hmod, ← htm]

theorem readNat_natBytes (n : Nat) : readNat (natBytes n) = some n := by
  have hfold := foldl_push_natBytes n
  rcases Nat.lt_or_ge n 10 with h | h
  · rw [natBytes_of_lt h] at hfold ⊢
    exact hfold
  · have hhead := head?_natBytes_ne (n := n) (by omega)
    rw [natBytes_of_le h] at hfold hhead ⊢
    cases hq : natBytes (n / 10) with
    | nil => exact absurd hq (natBytes_ne_nil _)
    | cons b t =>
      rw [hq] at hfold hhead
      have hb : b ≠ 48 := by simpa using hhead
      cases t <;> simpa [readNat, hb] using hfold

theorem eq_natBytes_of_readNat {s : Bytes} {n : Nat} (h : readNat s = some n) :
    s = natBytes n := by
  unfold readNat at h
  split at h
  · exact absurd h (by simp)
  · next b =>
    obtain ⟨m, d, hd, hm, rfl, rfl⟩ := push_eq_some h
    obtain rfl : 0 = m := by simpa using hm
    rw [Nat.mul_zero, Nat.zero_add, natBytes_of_lt hd]
  · next b rest _ =>
    split at h
    · exact absurd h (by simp)
    · next hb =>
      exact (eq_natBytes_of_foldl_push (List.cons_ne_nil b rest) (by simpa using hb) h).2

/-- Exactly the decimals are read, each as its number. -/
theorem readNat_eq_some_iff {s : Bytes} {n : Nat} : readNat s = some n ↔ s = natBytes n := by
  refine ⟨eq_natBytes_of_readNat, ?_⟩
  rintro rfl
  exact readNat_natBytes n

/-! ### Different numbers are written differently -/

theorem natBytes_inj {m n : Nat} : natBytes m = natBytes n ↔ m = n := by
  constructor
  · intro h
    have hread := readNat_natBytes m
    rw [h, readNat_natBytes] at hread
    exact (Option.some.inj hread).symm
  · rintro rfl
    rfl

/-- A sign is no digit. -/
theorem natBytes_ne_minus (m : Nat) (rest : Bytes) : natBytes m ≠ 45 :: rest := by
  intro h
  have hdigit := (isDigit_of_mem_natBytes (n := m) (b := 45) (by simp [h])).1
  have h45 : (45 : UInt8).toNat = 45 := rfl
  omega

theorem intBytes_inj {m n : Int} : intBytes m = intBytes n ↔ m = n := by
  cases m with
  | ofNat a =>
    cases n with
    | ofNat b => rw [intBytes, intBytes, natBytes_inj, Int.ofNat.injEq]
    | negSucc b => simp [intBytes, natBytes_ne_minus]
  | negSucc a =>
    cases n with
    | ofNat b => simp [intBytes, (natBytes_ne_minus b _).symm]
    | negSucc b => simp [intBytes, natBytes_inj]

end CommandWire.Decimal
