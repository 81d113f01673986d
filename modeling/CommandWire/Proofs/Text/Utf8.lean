import Mathlib.Tactic.SplitIfs
import CommandWire.Text.Utf8

/-! Decoding undoes encoding, so among the encodings of texts nothing is lost.

    The bytes of a character take the decoder round from the start to the start, and the character
    comes out with the last of them:

        one     0……                            start ─────────────────────▶ start
        two     110…  10…                      start ──▶ within ───────────▶ start
        three   1110… 10… 10…                  start ──▶ within ──▶ within ─▶ start
        four    11110… 10… 10… 10…             …

    The second byte is bounded further where the first has only zeros to offer, where the characters
    end, and where the surrogates are: just there no character has its bytes. -/

namespace CommandWire.Utf8

/-- Bytes that are the encoding of some text. -/
def IsText (data : Bytes) : Prop := ∃ s, encode s = data

/-! ### First bytes, and the others -/

theorem lead_one : ∀ n < 128, lead (UInt8.ofNat n) = ([Char.ofNat n], .start) := by decide

theorem lead_two : ∀ n < 32, 2 ≤ n →
    lead (UInt8.ofNat (n + 192)) = ([], .within 0x80 0xBF 0 n) := by decide

theorem lead_three : ∀ n < 16, lead (UInt8.ofNat (n + 224)) =
    ([], .within (if n = 0 then 0xA0 else 0x80) (if n = 13 then 0x9F else 0xBF) 1 n) := by decide

theorem lead_four : ∀ n < 5, lead (UInt8.ofNat (n + 240)) =
    ([], .within (if n = 0 then 0x90 else 0x80) (if n = 4 then 0x8F else 0xBF) 2 n) := by decide

/-- Six bits that a later byte may carry: the byte stays between the bounds. -/
structure Fits (low high : UInt8) (n : Nat) : Prop where
  bits : n < 64
  least : low.toNat ≤ n + 128
  most : n + 128 ≤ high.toNat

section Tail

variable {low high : UInt8} {code n : Nat} (rest : Bytes)

theorem Fits.any (hn : n < 64) : Fits 0x80 0xBF n :=
  ⟨hn, Nat.le_add_left 128 n, Nat.add_le_add_right (Nat.le_of_lt_succ hn) 128⟩

/-- Bounds that are narrower in certain cases. -/
theorem Fits.narrow {p q : Prop} [Decidable p] [Decidable q] (hn : n < 64)
    (hleast : p → low.toNat ≤ n + 128) (hmost : q → n + 128 ≤ high.toNat) :
    Fits (if p then low else 0x80) (if q then high else 0xBF) n := by
  refine ⟨hn, ?_, ?_⟩
  · split
    · next h => exact hleast h
    · exact (Fits.any hn).least
  · split
    · next h => exact hmost h
    · exact (Fits.any hn).most

/-- A byte between the bounds is taken, with its last six bits. -/
theorem Fits.taken (h : Fits low high n) :
    (low ≤ UInt8.ofNat (n + 128) ∧ UInt8.ofNat (n + 128) ≤ high) ∧
      (UInt8.ofNat (n + 128)).toNat % 64 = n := by
  obtain ⟨hn, hleast, hmost⟩ := h
  have htoNat : (UInt8.ofNat (n + 128)).toNat = n + 128 := by
    rw [UInt8.toNat_ofNat']
    omega
  rw [UInt8.le_iff_toNat_le, UInt8.le_iff_toNat_le, htoNat]
  exact ⟨⟨hleast, hmost⟩, by omega⟩

theorem decodeFrom_last (h : Fits low high n) :
    decodeFrom (.within low high 0 code) (UInt8.ofNat (n + 128) :: rest) =
      Char.ofNat (code * 64 + n) :: decodeFrom .start rest := by
  obtain ⟨hbounds, hbits⟩ := h.taken
  rw [decodeFrom_cons, step, if_pos hbounds, hbits]
  rfl

theorem decodeFrom_more {more : Nat} (h : Fits low high n) :
    decodeFrom (.within low high (more + 1) code) (UInt8.ofNat (n + 128) :: rest) =
      decodeFrom (.within 0x80 0xBF more (code * 64 + n)) rest := by
  obtain ⟨hbounds, hbits⟩ := h.taken
  rw [decodeFrom_cons, step, if_pos hbounds, hbits]
  rfl

end Tail

/-! ### One character -/

section Character

variable {n k l m : Nat} (rest : Bytes)

theorem decodeFrom_one (hn : n < 128) :
    decodeFrom .start (UInt8.ofNat n :: rest) = Char.ofNat n :: decodeFrom .start rest := by
  rw [decodeFrom_cons, step, lead_one n hn]
  rfl

theorem decodeFrom_two (hn : n < 32) (hleast : 2 ≤ n) (hk : k < 64) :
    decodeFrom .start (UInt8.ofNat (n + 192) :: UInt8.ofNat (k + 128) :: rest) =
      Char.ofNat (n * 64 + k) :: decodeFrom .start rest := by
  rw [decodeFrom_cons, step, lead_two n hn hleast]
  exact decodeFrom_last rest (.any hk)

theorem decodeFrom_three (hn : n < 16) (hk : k < 64) (hl : l < 64) (hleast : n = 0 → 32 ≤ k)
    (hsurrogate : n = 13 → k < 32) :
    decodeFrom .start
        (UInt8.ofNat (n + 224) :: UInt8.ofNat (k + 128) :: UInt8.ofNat (l + 128) :: rest) =
      Char.ofNat ((n * 64 + k) * 64 + l) :: decodeFrom .start rest := by
  have hfits : Fits (if n = 0 then 0xA0 else 0x80) (if n = 13 then 0x9F else 0xBF) k :=
    .narrow hk (fun h => Nat.add_le_add_right (hleast h) 128)
      fun h => Nat.add_le_add_right (Nat.le_of_lt_succ (hsurrogate h)) 128
  rw [decodeFrom_cons, step, lead_three n hn]
  exact (decodeFrom_more _ hfits).trans (decodeFrom_last rest (.any hl))

theorem decodeFrom_four (hn : n < 5) (hk : k < 64) (hl : l < 64) (hm : m < 64)
    (hleast : n = 0 → 16 ≤ k) (hmost : n = 4 → k < 16) :
    decodeFrom .start (UInt8.ofNat (n + 240) :: UInt8.ofNat (k + 128) :: UInt8.ofNat (l + 128) ::
        UInt8.ofNat (m + 128) :: rest) =
      Char.ofNat (((n * 64 + k) * 64 + l) * 64 + m) :: decodeFrom .start rest := by
  have hfits : Fits (if n = 0 then 0x90 else 0x80) (if n = 4 then 0x8F else 0xBF) k :=
    .narrow hk (fun h => Nat.add_le_add_right (hleast h) 128)
      fun h => Nat.add_le_add_right (Nat.le_of_lt_succ (hmost h)) 128
  rw [decodeFrom_cons, step, lead_four n hn]
  calc decodeFrom (.within _ _ 2 n) _
    _ = decodeFrom (.within 0x80 0xBF 1 (n * 64 + k)) _ := decodeFrom_more _ hfits
    _ = decodeFrom (.within 0x80 0xBF 0 ((n * 64 + k) * 64 + l)) _ := decodeFrom_more _ (.any hl)
    _ = _ := decodeFrom_last rest (.any hm)

/-- The bytes of a character are read as the character, whatever follows. -/
theorem decodeFrom_char (c : Char) :
    decodeFrom .start (String.utf8EncodeChar c ++ rest) = c :: decodeFrom .start rest := by
  have hrange : c.val.toNat < 0xD800 ∨ 0xDFFF < c.val.toNat ∧ c.val.toNat < 0x110000 := c.valid
  have hback : Char.ofNat c.val.toNat = c := Char.ofNat_toNat c
  rw [String.utf8EncodeChar]
  generalize c.val.toNat = v at hrange hback
  rw [← hback]
  split_ifs with hone htwo hthree
  · exact decodeFrom_one rest (by omega)
  · have hv : v / 64 % 32 * 64 + v % 64 = v := by omega
    have hread := decodeFrom_two rest (n := v / 64 % 32) (k := v % 64) (by omega) (by omega)
      (by omega)
    rwa [hv] at hread
  · have hv : (v / 4096 % 16 * 64 + v / 64 % 64) * 64 + v % 64 = v := by omega
    have hread := decodeFrom_three rest (n := v / 4096 % 16) (k := v / 64 % 64) (l := v % 64)
      (by omega) (by omega) (by omega) (by omega) (by omega)
    rwa [hv] at hread
  · have hv : ((v / 262144 % 8 * 64 + v / 4096 % 64) * 64 + v / 64 % 64) * 64 + v % 64 = v := by
      omega
    have hread := decodeFrom_four rest (n := v / 262144 % 8) (k := v / 4096 % 64)
      (l := v / 64 % 64) (m := v % 64) (by omega) (by omega) (by omega) (by omega) (by omega)
      (by omega)
    rwa [hv] at hread

end Character

/-! ### A text -/

theorem decodeFrom_encode (cs : List Char) (rest : Bytes) :
    decodeFrom .start (cs.flatMap String.utf8EncodeChar ++ rest) =
      cs ++ decodeFrom .start rest := by
  induction cs with
  | nil => rfl
  | cons c cs ih =>
    rw [List.flatMap_cons, List.append_assoc, decodeFrom_char, ih, List.cons_append]

/-- A text is read back from its bytes. -/
@[simp] theorem decode_encode (s : String) : decode (encode s) = s := by
  have hread := decodeFrom_encode s.toList []
  rw [List.append_nil, decodeFrom_nil, Pending.finish, List.append_nil] at hread
  rw [decode, encode, hread, String.ofList_toList]

/-- Among the encodings of texts no two are read alike. -/
theorem IsText.decode_inj {x y : Bytes} (hx : IsText x) (hy : IsText y)
    (h : decode x = decode y) : x = y := by
  obtain ⟨s, rfl⟩ := hx
  obtain ⟨t, rfl⟩ := hy
  rw [decode_encode, decode_encode] at h
  rw [h]

end CommandWire.Utf8
