import Mathlib.Tactic.SplitIfs
import CommandWire.Number.Layout

/-! No finite double is laid out like an integer.

    However many digits there are, and wherever the first one stands, either there is a point among
    them or an exponent behind them, also where the double is a whole number:

        positional   0.…        digits behind the point
                     ….0        all digits in front of it
                     ….…        digits on both sides
        exponent     …e±…       one digit
                     ….…e±…     more digits -/

namespace CommandWire.Binary64

/-- What tells the text of a finite double from that of an integer: a point or an exponent. -/
def IsMark (c : Char) : Prop := c = '.' ∨ c = 'e'

theorem Layout.exists_mark (l : Layout) (ds : List Char) (e : Int) :
    ∃ c ∈ l.write ds e, IsMark c := by
  unfold Layout.write
  split
  · refine ⟨'.', ?_, .inl rfl⟩
    dsimp only
    split_ifs
    · simp
    · simp
    · simp
  · split
    · refine ⟨'e', ?_, .inr rfl⟩
      simp [Layout.exponent]
    · refine ⟨'.', ?_, .inl rfl⟩
      simp

theorem exists_mark_magnitudeChars (i : Nat) : ∃ c ∈ magnitudeChars i, IsMark c := by
  unfold magnitudeChars
  split
  · exact layout.exists_mark _ _
  · exact layout.exists_mark _ _

theorem exists_mark_chars {x : Binary64} (hnan : x.isNaN = false) (hinf : x.isInfinite = false) :
    ∃ c ∈ x.chars, IsMark c := by
  obtain ⟨c, hmem, hc⟩ := exists_mark_magnitudeChars x.index
  refine ⟨c, ?_, hc⟩
  simp only [chars, hnan, hinf, Bool.false_eq_true, if_false]
  split
  · exact List.mem_cons_of_mem _ hmem
  · exact hmem

end CommandWire.Binary64
