import CommandWire.Bytes

/-! Whole numbers in decimal: no leading zeros, no plus sign, a minus sign only in front of a
    number below zero. -/

namespace CommandWire.Decimal

/-- The digits of a number, the most significant first; zero has the one digit `0`. -/
def digits (n : Nat) : List Nat :=
  if n < 10 then [n] else digits (n / 10) ++ [n % 10]
termination_by n

theorem digits_of_lt {n : Nat} (h : n < 10) : digits n = [n] := by
  rw [digits, if_pos h]

theorem digits_of_le {n : Nat} (h : 10 ≤ n) : digits n = digits (n / 10) ++ [n % 10] := by
  rw [digits, if_neg (by omega)]

/-- Every digit is below ten. -/
theorem lt_of_mem_digits {n d : Nat} (h : d ∈ digits n) : d < 10 := by
  induction n using digits.induct with
  | case1 n hn =>
    rw [digits_of_lt hn, List.mem_singleton] at h
    omega
  | case2 n hn ih =>
    rw [digits_of_le (by omega), List.mem_append, List.mem_singleton] at h
    rcases h with h | h
    · exact ih h
    · omega

/-- The character of a digit below ten. -/
def digitChar (d : Nat) : Char := Char.ofNat (48 + d)

/-- A natural number, as characters. -/
def natChars (n : Nat) : List Char := (digits n).map digitChar

/-- An integer, as characters. -/
def intChars : Int → List Char
  | .ofNat n => natChars n
  | .negSucc n => '-' :: natChars (n + 1)

/-- An integer, as text. -/
def text (n : Int) : String := String.ofList (intChars n)

/-- A natural number, as the bytes that go on the wire. -/
def natBytes (n : Nat) : Bytes := (digits n).map fun d => UInt8.ofNat (48 + d)

/-- An integer, as the bytes that go on the wire. -/
def intBytes : Int → Bytes
  | .ofNat n => natBytes n
  | .negSucc n => 45 :: natBytes (n + 1)

/-- Appends a digit to a value that is being read; nothing but an ASCII digit is one. -/
def push (value : Option Nat) (b : UInt8) : Option Nat :=
  if 48 ≤ b ∧ b ≤ 57 then value.map (10 * · + (b.toNat - 48)) else none

/-- Reads a natural number from all of its bytes. Refuses the empty string, anything but digits,
    and a leading zero in front of another digit. -/
def readNat : Bytes → Option Nat
  | [] => none
  | [b] => push (some 0) b
  | b :: rest => if b = 48 then none else (b :: rest).foldl push (some 0)

end CommandWire.Decimal
