import CommandWire.Conversion
import CommandWire.Proofs.Number.Scientific
import CommandWire.Proofs.Text.Utf8

/-! Whatever a conversion writes is a text.

    A number is written with digits, signs, a point, an exponent or a word, and all of these are in
    ASCII, where UTF-8 writes every character as one byte:

        integer   - digits
        double    - digits and zeros . e + -, or a word
        text      any characters, in UTF-8 already

    So the bytes of an argument that was converted are the encoding of some text, and they can be
    told apart by what a reader sees. -/

namespace CommandWire

/-! ### Characters of ASCII -/

/-- Characters of which every one is in ASCII. -/
def IsAscii (cs : List Char) : Prop := ∀ c ∈ cs, c.toNat < 128

instance (cs : List Char) : Decidable (IsAscii cs) := List.decidableBAll _ _

namespace IsAscii

variable {c : Char} {cs ds : List Char}

theorem cons (hc : c.toNat < 128) (hcs : IsAscii cs) : IsAscii (c :: cs) :=
  List.forall_mem_cons.mpr ⟨hc, hcs⟩

theorem append (hcs : IsAscii cs) (hds : IsAscii ds) : IsAscii (cs ++ ds) :=
  List.forall_mem_append.mpr ⟨hcs, hds⟩

theorem subset (hds : IsAscii ds) (h : cs ⊆ ds) : IsAscii cs := fun c hc => hds c (h hc)

theorem replicate (n : Nat) (hc : c.toNat < 128) : IsAscii (List.replicate n c) := by
  intro d hd
  rwa [List.eq_of_mem_replicate hd]

end IsAscii

namespace Utf8

theorem utf8EncodeChar_of_lt {c : Char} (h : c.toNat < 128) :
    String.utf8EncodeChar c = [UInt8.ofNat c.toNat] := by
  have hc : c.val.toNat ≤ 127 := Nat.le_of_lt_succ h
  rw [String.utf8EncodeChar, if_pos hc]
  rfl

/-- In ASCII, the bytes of a text are its characters. -/
theorem encode_of_isAscii {s : String} (h : IsAscii s.toList) : encode s = ascii s := by
  rw [encode, ascii, List.map_eq_flatMap]
  exact List.flatMap_congr fun c hc => utf8EncodeChar_of_lt (h c hc)

end Utf8

/-! ### Numbers -/

namespace Decimal

theorem digitChar_lt : ∀ d < 10, (digitChar d).toNat < 128 := by decide

theorem isAscii_natChars (n : Nat) : IsAscii (natChars n) := by
  intro c hc
  obtain ⟨d, hd, rfl⟩ := List.mem_map.mp hc
  exact digitChar_lt d (lt_of_mem_digits hd)

theorem isAscii_intChars (n : Int) : IsAscii (intChars n) := by
  cases n with
  | ofNat m => exact isAscii_natChars m
  | negSucc m => exact .cons (by decide) (isAscii_natChars (m + 1))

/-- A decimal is the same in characters and in bytes. -/
theorem toBytes_intChars (n : Int) : Scientific.toBytes (intChars n) = intBytes n := by
  cases n with
  | ofNat m => exact Scientific.toBytes_natChars m
  | negSucc m => exact congrArg (45 :: ·) (Scientific.toBytes_natChars (m + 1))

theorem isText_intBytes (n : Int) : Utf8.IsText (intBytes n) := by
  have hchars : (text n).toList = intChars n := String.toList_ofList
  refine ⟨text n, ?_⟩
  rw [Utf8.encode_of_isAscii (hchars ▸ isAscii_intChars n), ascii, hchars]
  exact toBytes_intChars n

end Decimal

namespace Binary64

theorem Layout.isAscii_exponent (l : Layout) (e : Int) : IsAscii (l.exponent e) := by
  have hsign : (if e < 0 then '-' else '+').toNat < 128 := by split <;> decide
  have hdigits := Decimal.isAscii_natChars e.natAbs
  exact .cons (by decide) (.cons hsign (.append (.replicate _ (by decide)) hdigits))

theorem Layout.isAscii_write (l : Layout) {ds : List Char} (hds : IsAscii ds) (e : Int) :
    IsAscii (l.write ds e) := by
  have hpoint : ('.').toNat < 128 := by decide
  have hzeros : ∀ n, IsAscii (List.replicate n '0') := fun n => .replicate n (by decide)
  have htake : ∀ n, IsAscii (ds.take n) := fun n => hds.subset (List.take_subset n ds)
  have hdrop : ∀ n, IsAscii (ds.drop n) := fun n => hds.subset (List.drop_subset n ds)
  have hexponent := l.isAscii_exponent e
  unfold Layout.write
  dsimp only
  split_ifs
  · exact .cons (by decide) (.cons hpoint (.append (hzeros _) hds))
  · exact .append (.append hds (hzeros _)) (by decide)
  · exact .append (htake _) (.cons hpoint (hdrop _))
  · split
    · exact .append hds hexponent
    · exact .append (htake 1) (.cons hpoint (.append (hdrop 1) hexponent))

theorem isAscii_chars (x : Binary64) : IsAscii x.chars := by
  have hmagnitude : IsAscii (magnitudeChars x.index) := by
    unfold magnitudeChars
    split
    · exact layout.isAscii_write (by decide) 0
    · exact layout.isAscii_write (Decimal.isAscii_natChars _) _
  have hword : IsAscii (if x.isInfinite then "inf".toList else magnitudeChars x.index) := by
    split
    · decide
    · exact hmagnitude
  unfold chars
  dsimp only
  generalize (if x.isInfinite then "inf".toList else magnitudeChars x.index) = word at hword ⊢
  split_ifs
  · decide
  · exact .cons (by decide) hword
  · exact hword

theorem isText_of_wireBytes {x : Binary64} {s : Bytes} (h : x.wireBytes = .ok s) :
    Utf8.IsText s := by
  unfold wireBytes at h
  split_ifs at h
  · cases h
    exact ⟨"-inf", Utf8.encode_of_isAscii (by decide)⟩
  · cases h
    exact ⟨"+inf", Utf8.encode_of_isAscii (by decide)⟩
  · cases h
    have hchars : x.text.toList = x.chars := String.toList_ofList
    exact ⟨x.text, Utf8.encode_of_isAscii (hchars ▸ x.isAscii_chars)⟩

end Binary64

/-! ### Values -/

namespace Value

variable {v : Value} {s : Bytes}

theorem isText_of_int64Bytes (h : v.int64Bytes = .ok s) : Utf8.IsText s := by
  rw [int64Bytes] at h
  cases hn : v.toInt64 with
  | error why =>
    rw [hn] at h
    cases h
  | ok n =>
    rw [hn] at h
    cases h
    exact Decimal.isText_intBytes n.toInt

theorem isText_of_floatBytes (h : v.floatBytes = .ok s) : Utf8.IsText s := by
  unfold floatBytes at h
  split at h
  · cases h
  · next n =>
    cases hx : Binary64.ofInt? n with
    | none =>
      rw [hx] at h
      cases h
    | some x =>
      rw [hx] at h
      exact Binary64.isText_of_wireBytes h
  · exact Binary64.isText_of_wireBytes h
  · cases h

theorem isText_of_textBytes (h : v.textBytes = .ok s) : Utf8.IsText s := by
  unfold textBytes at h
  split at h
  · cases h
    exact ⟨_, rfl⟩
  · cases h

end Value
end CommandWire
