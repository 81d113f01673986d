import CommandWire.Proofs.Number.Decimal

/-! The decimal of an integer is the only canonical one that stands for it.

    What a decimal stands for is told by its digits from the left, whether there are too many of
    them or not. Canonical is the one without anything to spare: no plus sign, no zero in front of
    other digits, and no minus sign in front of a zero. -/

namespace CommandWire.Decimal

/-- A digit in ASCII. -/
def IsDigit (b : UInt8) : Prop := 48 ≤ b.toNat ∧ b.toNat ≤ 57

/-- Digits, at least one, of which the first is a zero only if it is alone. -/
structure Numeral (s : Bytes) : Prop where
  nonempty : s ≠ []
  digits : ∀ b ∈ s, IsDigit b
  leading : s.head? = some 48 → s = [48]

/-- A canonical decimal. -/
inductive Canonical : Bytes → Prop where
  | unsigned {s : Bytes} (numeral : Numeral s) : Canonical s
  | minus {s : Bytes} (numeral : Numeral s) (nonzero : s ≠ [48]) : Canonical (45 :: s)

/-- The number that digits stand for, the most significant first. -/
def readDigits : Bytes → Option Nat
  | [] => none
  | b :: rest => (b :: rest).foldl push (some 0)

/-- The integer that digits stand for, with or without a minus sign in front of them. -/
def readInt : Bytes → Option Int
  | [] => none
  | b :: rest =>
    if b = 45 then (readDigits rest).map Int.negOfNat
    else (readDigits (b :: rest)).map Int.ofNat

theorem readInt_minus (s : Bytes) : readInt (45 :: s) = (readDigits s).map Int.negOfNat := by
  rw [readInt, if_pos rfl]

theorem readDigits_of_ne_nil {s : Bytes} (h : s ≠ []) : readDigits s = s.foldl push (some 0) := by
  cases s with
  | nil => exact absurd rfl h
  | cons b rest => rfl

/-! ### Digits without a sign -/

theorem IsDigit.ne_minus {b : UInt8} (h : IsDigit b) : b ≠ 45 := by
  rintro rfl
  exact absurd h.1 (by decide)

theorem Numeral.readInt_eq {s : Bytes} (h : Numeral s) :
    readInt s = (readDigits s).map Int.ofNat := by
  cases s with
  | nil => exact absurd rfl h.nonempty
  | cons b rest => exact if_neg (h.digits b List.mem_cons_self).ne_minus

theorem natBytes_zero : natBytes 0 = [48] := natBytes_of_lt (by decide)

theorem natBytes_eq_zero_iff {n : Nat} : natBytes n = [48] ↔ n = 0 := by
  rw [← natBytes_zero, natBytes_inj]

theorem numeral_natBytes (n : Nat) : Numeral (natBytes n) := by
  refine ⟨natBytes_ne_nil n, fun b hb => isDigit_of_mem_natBytes hb, fun hhead => ?_⟩
  rw [natBytes_eq_zero_iff]
  by_contra hn
  exact head?_natBytes_ne (Nat.pos_of_ne_zero hn) hhead

theorem readDigits_natBytes (n : Nat) : readDigits (natBytes n) = some n := by
  rw [readDigits_of_ne_nil (natBytes_ne_nil n), foldl_push_natBytes]

/-- Only one numeral stands for a number. -/
theorem Numeral.eq_natBytes {s : Bytes} {n : Nat} (h : Numeral s) (hread : readDigits s = some n) :
    s = natBytes n := by
  rcases eq_or_ne s [48] with rfl | hzero
  · rw [← natBytes_zero, readDigits_natBytes] at hread
    rw [← Option.some.inj hread, natBytes_zero]
  · have hhead : s.head? ≠ some 48 := fun hhead => hzero (h.leading hhead)
    rw [readDigits_of_ne_nil h.nonempty] at hread
    exact (eq_natBytes_of_foldl_push h.nonempty hhead hread).2

/-! ### Integers -/

theorem canonical_intBytes (n : Int) : Canonical (intBytes n) := by
  cases n with
  | ofNat n => exact .unsigned (numeral_natBytes n)
  | negSucc n =>
    refine .minus (numeral_natBytes _) fun hzero => ?_
    exact absurd (natBytes_eq_zero_iff.mp hzero) (Nat.succ_ne_zero n)

theorem readInt_intBytes (n : Int) : readInt (intBytes n) = some n := by
  cases n with
  | ofNat n =>
    rw [intBytes, (numeral_natBytes n).readInt_eq, readDigits_natBytes]
    rfl
  | negSucc n =>
    rw [intBytes, readInt_minus, readDigits_natBytes]
    rfl

/-- Only one canonical decimal stands for an integer. -/
theorem Canonical.eq_intBytes {s : Bytes} {n : Int} (h : Canonical s) (hread : readInt s = some n) :
    s = intBytes n := by
  cases h with
  | unsigned numeral =>
    rw [numeral.readInt_eq] at hread
    obtain ⟨m, hm, rfl⟩ := Option.map_eq_some_iff.mp hread
    exact numeral.eq_natBytes hm
  | minus numeral nonzero =>
    rw [readInt_minus] at hread
    obtain ⟨m, hm, rfl⟩ := Option.map_eq_some_iff.mp hread
    obtain rfl := numeral.eq_natBytes hm
    obtain ⟨k, rfl⟩ := Nat.exists_eq_succ_of_ne_zero fun hzero =>
      nonzero (natBytes_eq_zero_iff.mpr hzero)
    rfl

theorem eq_intBytes_iff {s : Bytes} {n : Int} :
    s = intBytes n ↔ Canonical s ∧ readInt s = some n := by
  constructor
  · rintro rfl
    exact ⟨canonical_intBytes n, readInt_intBytes n⟩
  · rintro ⟨hcanonical, hread⟩
    exact hcanonical.eq_intBytes hread

/-- A decimal has only digits and minus signs. -/
theorem eq_minus_or_isDigit_of_mem_intBytes {n : Int} {b : UInt8} (h : b ∈ intBytes n) :
    b = 45 ∨ IsDigit b := by
  cases n with
  | ofNat n => exact .inr (isDigit_of_mem_natBytes h)
  | negSucc n =>
    rcases List.mem_cons.mp h with rfl | hdigit
    · exact .inl rfl
    · exact .inr (isDigit_of_mem_natBytes hdigit)

end CommandWire.Decimal
