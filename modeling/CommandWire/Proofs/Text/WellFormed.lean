import Mathlib.Data.List.Forall2
import CommandWire.Proofs.Text.Utf8

/-! Which byte strings are well-formed: those that are read and written back unchanged.

    A character takes one to four bytes. The first byte tells how many, and the range in which each
    of the others lies; the table lists this. No form of it writes a character with more bytes than
    needed, none writes a surrogate, and none goes past the last code point. -/

namespace CommandWire.Utf8

/-- The least and the greatest byte of a range. -/
abbrev Span := Nat × Nat

/-- Whether a byte lies in a range. -/
def Span.Has (s : Span) (b : UInt8) : Prop := s.1 ≤ b.toNat ∧ b.toNat ≤ s.2

instance (s : Span) (b : UInt8) : Decidable (s.Has b) :=
  inferInstanceAs (Decidable (s.1 ≤ b.toNat ∧ b.toNat ≤ s.2))

/-- The range of a byte that is not the first of a character, if nothing narrows it. -/
def tail : Span := (0x80, 0xBF)

/-- A form of the bytes of one character: the range of the first byte, and of each of the others. -/
structure Form where
  first : Span
  others : List Span
  deriving DecidableEq

/-- The forms of the bytes of one character. -/
def forms : List Form :=
  [ ⟨(0x00, 0x7F), []⟩,
    ⟨(0xC2, 0xDF), [tail]⟩,
    ⟨(0xE0, 0xE0), [(0xA0, 0xBF), tail]⟩,
    ⟨(0xE1, 0xEC), [tail, tail]⟩,
    ⟨(0xED, 0xED), [(0x80, 0x9F), tail]⟩,
    ⟨(0xEE, 0xEF), [tail, tail]⟩,
    ⟨(0xF0, 0xF0), [(0x90, 0xBF), tail, tail]⟩,
    ⟨(0xF1, 0xF3), [tail, tail, tail]⟩,
    ⟨(0xF4, 0xF4), [(0x80, 0x8F), tail, tail]⟩ ]

/-- Bytes that lie in ranges, one in each. -/
abbrev Fit (spans : List Span) (bytes : Bytes) : Prop := List.Forall₂ Span.Has spans bytes

theorem fit_cons {s : Span} {spans : List Span} {b : UInt8} {bytes : Bytes} :
    Fit (s :: spans) (b :: bytes) ↔ s.Has b ∧ Fit spans bytes :=
  List.forall₂_cons

/-- The bytes of one character. -/
inductive Sequence : Bytes → Prop where
  | of {f : Form} {b : UInt8} {others : Bytes} (known : f ∈ forms) (first : f.first.Has b)
      (rest : Fit f.others others) : Sequence (b :: others)

/-- The bytes of characters, one after another. -/
inductive WellFormed : Bytes → Prop where
  | nil : WellFormed []
  | cons {one rest : Bytes} (first : Sequence one) (others : WellFormed rest) :
      WellFormed (one ++ rest)

/-! ### The first byte tells the form -/

/-- No byte is the first one in two forms. -/
theorem forms_apart : ∀ f ∈ forms, ∀ g ∈ forms, f ≠ g →
    f.first.2 < g.first.1 ∨ g.first.2 < f.first.1 := by decide

theorem eq_of_has {f g : Form} {b : UInt8} (hf : f ∈ forms) (hg : g ∈ forms) (hfb : f.first.Has b)
    (hgb : g.first.Has b) : f = g := by
  by_contra hne
  obtain ⟨hf1, hf2⟩ := hfb
  obtain ⟨hg1, hg2⟩ := hgb
  rcases forms_apart f hf g hg hne with hlt | hlt
  · omega
  · omega

theorem sequence_cons_iff {b : UInt8} {others : Bytes} :
    Sequence (b :: others) ↔ ∃ f ∈ forms, f.first.Has b ∧ Fit f.others others := by
  constructor
  · rintro ⟨known, first, rest⟩
    exact ⟨_, known, first, rest⟩
  · rintro ⟨f, known, first, rest⟩
    exact .of known first rest

/-- Behind the first byte of a form, just its other ranges are to be filled. -/
theorem Form.sequence_iff {f : Form} {b : UInt8} (known : f ∈ forms) (first : f.first.Has b)
    (others : Bytes) : Sequence (b :: others) ↔ Fit f.others others := by
  rw [sequence_cons_iff]
  constructor
  · rintro ⟨g, hg, hgb, hothers⟩
    rwa [eq_of_has known hg first hgb]
  · intro hothers
    exact ⟨f, known, first, hothers⟩

/-- Every range has a byte, its least one. -/
theorem exists_fit {f : Form} (known : f ∈ forms) : ∃ others, Fit f.others others := by
  have hleast : ∀ f ∈ forms, ∀ s ∈ f.others, s.Has (UInt8.ofNat s.1) := by decide
  refine ⟨f.others.map fun s => UInt8.ofNat s.1, ?_⟩
  exact List.forall₂_map_right_iff.mpr (List.forall₂_same.mpr (hleast f known))

/-- The first byte of a character is none that stands inside one. -/
theorem Sequence.not_tail {b : UInt8} {others : Bytes} (h : Sequence (b :: others)) :
    ¬ tail.Has b := by
  have hfirst : ∀ f ∈ forms, f.first.2 < tail.1 ∨ tail.2 < f.first.1 := by decide
  obtain ⟨f, known, ⟨hlow, hhigh⟩, -⟩ := sequence_cons_iff.mp h
  rintro ⟨hleast, hmost⟩
  rcases hfirst f known with hlt | hlt
  · omega
  · omega

theorem Sequence.ne_nil {one : Bytes} (h : Sequence one) : one ≠ [] := by
  rintro rfl
  cases h

/-- No character is a first part of another. -/
theorem Sequence.append_eq_nil {one more : Bytes} (h : Sequence one)
    (hmore : Sequence (one ++ more)) : more = [] := by
  cases h with
  | @of f b others known first rest =>
    have hall : Fit f.others (others ++ more) := (Form.sequence_iff known first _).mp hmore
    have hlength := hall.length_eq.symm.trans rest.length_eq
    simpa using hlength

/-! ### The bytes of a character -/

theorem eq_ofNat {b : UInt8} {n : Nat} (h : b.toNat = n) : b = UInt8.ofNat n := by
  rw [← h, UInt8.ofNat_toNat]

section Length

variable {a b c d : UInt8}

theorem sequence_one_iff : Sequence [a] ↔ a.toNat < 128 := by
  simp [sequence_cons_iff, forms, Span.Has]
  omega

theorem sequence_two_iff : Sequence [a, b] ↔ Span.Has (0xC2, 0xDF) a ∧ tail.Has b := by
  simp [sequence_cons_iff, forms]

theorem sequence_three_iff : Sequence [a, b, c] ↔
    Span.Has (0xE0, 0xEF) a ∧ tail.Has b ∧ tail.Has c ∧
      (a.toNat = 0xE0 → 0xA0 ≤ b.toNat) ∧ (a.toNat = 0xED → b.toNat ≤ 0x9F) := by
  simp [sequence_cons_iff, forms, Span.Has, tail]
  omega

theorem sequence_four_iff : Sequence [a, b, c, d] ↔
    Span.Has (0xF0, 0xF4) a ∧ tail.Has b ∧ tail.Has c ∧ tail.Has d ∧
      (a.toNat = 0xF0 → 0x90 ≤ b.toNat) ∧ (a.toNat = 0xF4 → b.toNat ≤ 0x8F) := by
  simp [sequence_cons_iff, forms, Span.Has, tail]
  omega

end Length

/-- The bytes of a character are in the table. -/
theorem sequence_char (c : Char) : Sequence (String.utf8EncodeChar c) := by
  have hrange : c.val.toNat < 0xD800 ∨ 0xDFFF < c.val.toNat ∧ c.val.toNat < 0x110000 := c.valid
  rw [String.utf8EncodeChar]
  generalize c.val.toNat = v at hrange
  split_ifs with hone htwo hthree
  · rw [sequence_one_iff, UInt8.toNat_ofNat']
    omega
  · simp only [sequence_two_iff, Span.Has, tail, UInt8.toNat_ofNat']
    omega
  · simp only [sequence_three_iff, Span.Has, tail, UInt8.toNat_ofNat']
    omega
  · simp only [sequence_four_iff, Span.Has, tail, UInt8.toNat_ofNat']
    omega

/-- Every valid code point is that of a character. -/
theorem exists_val_eq {v : Nat} (h : v.isValidChar) : ∃ ch : Char, ch.val.toNat = v := by
  refine ⟨Char.ofNat v, ?_⟩
  rw [Char.ofNat, dif_pos h]
  rfl

/-- Conversely, what the table allows is always a character, the one with the bits of the bytes. -/
theorem Sequence.exists_char {one : Bytes} (h : Sequence one) :
    ∃ ch, one = String.utf8EncodeChar ch := by
  rcases one with _ | ⟨a, _ | ⟨b, _ | ⟨c, _ | ⟨d, _ | ⟨e, rest⟩⟩⟩⟩⟩
  · exact absurd rfl h.ne_nil
  · rw [sequence_one_iff] at h
    obtain ⟨ch, hch⟩ := exists_val_eq (v := a.toNat) (.inl (by omega))
    refine ⟨ch, ?_⟩
    rw [String.utf8EncodeChar, hch, if_pos (by omega), UInt8.ofNat_toNat]
  · simp only [sequence_two_iff, Span.Has, tail] at h
    obtain ⟨ch, hch⟩ := exists_val_eq (v := (a.toNat - 192) * 64 + (b.toNat - 128))
      (.inl (by omega))
    refine ⟨ch, ?_⟩
    rw [String.utf8EncodeChar, hch, if_neg (by omega), if_pos (by omega)]
    simp only [List.cons.injEq, and_true]
    exact ⟨eq_ofNat (by omega), eq_ofNat (by omega)⟩
  · simp only [sequence_three_iff, Span.Has, tail] at h
    -- the surrogates are left out by the second byte
    have hvalid : Nat.isValidChar
        (((a.toNat - 224) * 64 + (b.toNat - 128)) * 64 + (c.toNat - 128)) := by
      unfold Nat.isValidChar
      omega
    obtain ⟨ch, hch⟩ := exists_val_eq hvalid
    refine ⟨ch, ?_⟩
    rw [String.utf8EncodeChar, hch, if_neg (by omega), if_neg (by omega), if_pos (by omega)]
    simp only [List.cons.injEq, and_true]
    exact ⟨eq_ofNat (by omega), eq_ofNat (by omega), eq_ofNat (by omega)⟩
  · simp only [sequence_four_iff, Span.Has, tail] at h
    obtain ⟨ch, hch⟩ := exists_val_eq (v := (((a.toNat - 240) * 64 + (b.toNat - 128)) * 64
      + (c.toNat - 128)) * 64 + (d.toNat - 128)) (.inr (by omega))
    refine ⟨ch, ?_⟩
    rw [String.utf8EncodeChar, hch, if_neg (by omega), if_neg (by omega), if_neg (by omega)]
    simp only [List.cons.injEq, and_true]
    exact ⟨eq_ofNat (by omega), eq_ofNat (by omega), eq_ofNat (by omega), eq_ofNat (by omega)⟩
  · -- no form has more than four bytes
    obtain ⟨f, known, first, others⟩ := sequence_cons_iff.mp h
    have hlong : ∀ f ∈ forms, f.others.length < 4 := by decide
    have hlength := others.length_eq
    have hle := hlong f known
    simp only [List.length_cons] at hlength
    omega

/-! ### Texts -/

/-- The well-formed byte strings are the encodings of texts. -/
theorem wellFormed_iff_isText {data : Bytes} : WellFormed data ↔ IsText data := by
  constructor
  · intro h
    induction h with
    | nil => exact ⟨"", rfl⟩
    | cons first others ih =>
      obtain ⟨c, rfl⟩ := first.exists_char
      obtain ⟨s, rfl⟩ := ih
      exact ⟨String.ofList (c :: s.toList), by simp [encode]⟩
  · rintro ⟨s, rfl⟩
    unfold encode
    induction s.toList with
    | nil => exact .nil
    | cons c cs ih => exact .cons (sequence_char c) ih

/-- A byte string is written back unchanged exactly if it was well-formed. -/
theorem encode_decode_eq_iff {data : Bytes} : encode (decode data) = data ↔ WellFormed data := by
  rw [wellFormed_iff_isText]
  constructor
  · intro h
    exact ⟨decode data, h⟩
  · rintro ⟨s, rfl⟩
    rw [decode_encode]

instance (data : Bytes) : Decidable (WellFormed data) :=
  decidable_of_iff _ encode_decode_eq_iff

example : ¬ WellFormed [0x41, 0xED, 0xA0, 0x80] := by decide +kernel

end CommandWire.Utf8
