import CommandWire.Proofs.Number.Decimal
import CommandWire.Proofs.Range.Making
import CommandWire.Proofs.Wire.Decoding
import CommandWire.Request.Edit
import CommandWire.Value.Equality

/-! A range can be recognised by the arguments that it adds to a command.

    The bounds come first, so they may read like anything, also like a keyword. Every optional part
    behind them is opened by a keyword that cannot open a part further back:

        min max [BYSCORE | BYLEX] [REV] [LIMIT offset count]

    Hence each part can be read off in turn, and two ranges that add the same are equal. -/

namespace CommandWire

namespace Keyword

/-- A keyword can be looked up by the way it is written. -/
theorem find?_all (k : Keyword) : all.find? (fun l => ascii l.name == ascii k.name) = some k := by
  cases k <;> decide +kernel

theorem name_inj {k l : Keyword} (h : ascii k.name = ascii l.name) : k = l := by
  have hk := find?_all k
  rw [h, find?_all l] at hk
  exact (Option.some.inj hk).symm

end Keyword

namespace Range

/-- The bytes of the arguments that a range adds. -/
def raws (p : Range) : List Bytes := p.arguments.map Argument.raw

theorem addBuilt_range (r : Request) (p : Range) :
    (r.addBuilt (.range p)).2 = none ∧ (r.addBuilt (.range p)).1.raws = r.raws ++ p.raws := by
  refine ⟨rfl, ?_⟩
  show (r.pushAll p.arguments).raws = r.raws ++ p.raws
  rw [Request.raws, Request.arguments_pushAll, List.map_append]
  rfl

/-! ### The parts behind the bounds -/

/-- The word for what the bounds are bounds of; positions need none. -/
def modeWord (mode : Mode) : Option Bytes := mode.keyword?.map fun k => ascii k.name

/-- The word for the other direction. -/
def directionWord (reversed : Bool) : Option Bytes :=
  if reversed then some (ascii Keyword.rev.name) else none

/-- The words for a window. -/
def windowWords : Option (Int64 × Int64) → List Bytes
  | none => []
  | some (offset, count) =>
    [ascii Keyword.limit.name, Decimal.intBytes offset.toInt, Decimal.intBytes count.toInt]

theorem raws_eq (p : Range) :
    p.raws = p.min :: p.max :: ((modeWord p.mode).toList ++
      ((directionWord p.reversed).toList ++ windowWords p.window)) := by
  obtain ⟨mode, min, max, reversed, window⟩ := p
  rcases mode with _ | _ | _ <;> rcases reversed with _ | _ <;>
    rcases window with _ | ⟨offset, count⟩ <;> rfl

theorem windowWords_inj {v w : Option (Int64 × Int64)} (h : windowWords v = windowWords w) :
    v = w := by
  rcases v with _ | ⟨o, c⟩ <;> rcases w with _ | ⟨o', c'⟩
  · rfl
  · cases h
  · cases h
  · simp only [windowWords, List.cons.injEq, Decimal.intBytes_inj, Int64.toInt_inj] at h
    obtain ⟨-, rfl, rfl, -⟩ := h
    rfl

/-- Behind the mode comes nothing, or one of two keywords. -/
theorem head?_options {reversed : Bool} {window : Option (Int64 × Int64)} {word : Bytes}
    (h : ((directionWord reversed).toList ++ windowWords window).head? = some word) :
    word = ascii Keyword.rev.name ∨ word = ascii Keyword.limit.name := by
  rcases reversed with _ | _
  · rcases window with _ | ⟨offset, count⟩
    · cases h
    · exact .inr (Option.some.inj h).symm
  · exact .inl (Option.some.inj h).symm

/-- An optional word can be told from what may stand behind it. -/
theorem toList_append_inj {v w : Option Bytes} {s t : List Bytes}
    (hs : ∀ word, w = some word → s.head? ≠ some word)
    (ht : ∀ word, v = some word → t.head? ≠ some word) (h : v.toList ++ s = w.toList ++ t) :
    v = w ∧ s = t := by
  rcases v with _ | a <;> rcases w with _ | b
  · exact ⟨rfl, h⟩
  · exact absurd (congrArg List.head? h) (hs b rfl)
  · exact absurd (congrArg List.head? h).symm (ht a rfl)
  · obtain ⟨rfl, rfl⟩ := List.cons.inj h
    exact ⟨rfl, rfl⟩

theorem modeWord_ne_head? {mode : Mode} {reversed : Bool} {window : Option (Int64 × Int64)}
    (word : Bytes) (hmode : modeWord mode = some word) :
    ((directionWord reversed).toList ++ windowWords window).head? ≠ some word := by
  intro h
  obtain ⟨k, hk, rfl⟩ := Option.map_eq_some_iff.mp hmode
  rcases head?_options h with hrev | hlimit
  · obtain rfl := Keyword.name_inj hrev
    rcases mode with _ | _ | _ <;> cases hk
  · obtain rfl := Keyword.name_inj hlimit
    rcases mode with _ | _ | _ <;> cases hk

theorem directionWord_ne_head? {reversed : Bool} {window : Option (Int64 × Int64)}
    (word : Bytes) (hreversed : directionWord reversed = some word) :
    (windowWords window).head? ≠ some word := by
  intro h
  rcases reversed with _ | _
  · cases hreversed
  · rcases window with _ | ⟨offset, count⟩
    · cases h
    · have hsame := (Option.some.inj h).trans (Option.some.inj hreversed).symm
      cases Keyword.name_inj hsame

theorem modeWord_inj {m n : Mode} (h : modeWord m = modeWord n) : m = n := by
  have hkeyword : m.keyword? = n.keyword? := Option.map_injective (fun _ _ => Keyword.name_inj) h
  rcases m with _ | _ | _ <;> rcases n with _ | _ | _ <;> simp_all [Mode.keyword?]

theorem directionWord_inj {v w : Bool} (h : directionWord v = directionWord w) : v = w := by
  rcases v with _ | _ <;> rcases w with _ | _
  · rfl
  · cases h
  · cases h
  · rfl

/-! ### Reading a range off -/

/-- Ranges that add the same arguments are equal. -/
theorem raws_inj {p q : Range} : p.raws = q.raws ↔ p = q := by
  constructor
  · intro h
    rw [raws_eq, raws_eq] at h
    obtain ⟨hmin, h⟩ := List.cons.inj h
    obtain ⟨hmax, h⟩ := List.cons.inj h
    obtain ⟨hmode, h⟩ := toList_append_inj modeWord_ne_head? modeWord_ne_head? h
    obtain ⟨hdirection, h⟩ := toList_append_inj directionWord_ne_head? directionWord_ne_head? h
    obtain ⟨mode, min, max, reversed, window⟩ := p
    obtain rfl := modeWord_inj hmode
    obtain rfl := directionWord_inj hdirection
    obtain rfl := windowWords_inj h
    obtain rfl := hmin
    obtain rfl := hmax
    rfl
  · rintro rfl
    rfl

/-- A keyword for a mode stands in the third place exactly if it is that of the range's mode. -/
theorem third_eq_keyword_iff {p : Range} {k : Keyword} (hrev : k ≠ .rev) (hlimit : k ≠ .limit) :
    p.raws[2]? = some (ascii k.name) ↔ p.mode.keyword? = some k := by
  have hthird : p.raws[2]? = ((modeWord p.mode).toList ++
      ((directionWord p.reversed).toList ++ windowWords p.window)).head? := by
    rw [raws_eq, List.head?_eq_getElem?]
    rfl
  rw [hthird, modeWord]
  cases p.mode.keyword? with
  | none =>
    refine iff_of_false ?_ (by simp)
    intro h
    rcases head?_options h with hsame | hsame
    · exact hrev (Keyword.name_inj hsame)
    · exact hlimit (Keyword.name_inj hsame)
  | some l =>
    constructor
    · intro h
      rw [Keyword.name_inj (Option.some.inj h)]
    · intro h
      rw [Option.some.inj h]
      rfl

theorem mode_eq_score_iff (m : Maker) (min max : Value) : m.mode min max = .score ↔
    m = .score ∨ m = .numbers ∧ (min.isFloat = true ∨ max.isFloat = true) := by
  cases m with
  | numbers =>
    rcases hmin : min.isFloat with _ | _ <;> rcases hmax : max.isFloat with _ | _ <;>
      simp [Maker.mode, hmin, hmax]
  | index | score | lex => simp [Maker.mode]

theorem mode_eq_lex_iff (m : Maker) (min max : Value) : m.mode min max = .lex ↔ m = .lex := by
  cases m with
  | numbers =>
    rw [Maker.mode]
    split
    · simp
    · simp
  | index | score | lex => simp [Maker.mode]

/-- However a range was made and changed, it equals another one exactly if both add the same bytes
    to a request, which never fails. What it adds are the bytes of its bounds, then the keyword of
    its mode, if that has one, then `REV` if some change turned it around, and then the last window
    that was set. The keyword for scores stands in the third place exactly if the range was made of
    scores, or of numbers of which one is a float; the one for texts, exactly if it was made of
    texts. -/
theorem eqv_iff_addBuilt_eq {m : Maker} {min max : Value} {made : Range}
    (hmake : m.make min max = .ok made) (edits : List Edit) (q : Range) :
    let p := made.editAll edits
    (∀ r : Request, (r.addBuilt (.range p)).2 = none ∧
      (r.addBuilt (.range p)).1.raws = r.raws ++ p.raws ∧
      ((Value.range p).eqv (.range q) = true ↔
        (r.addBuilt (.range p)).1.raws = (r.addBuilt (.range q)).1.raws)) ∧
    (∃ low high, boundBytes (m.mode min max) min = .ok low ∧
      boundBytes (m.mode min max) max = .ok high ∧
      p.raws = low :: high :: ((modeWord (m.mode min max)).toList ++
        ((directionWord (edits.any Edit.reverses)).toList ++
          windowWords (edits.filterMap Edit.window?).getLast?))) ∧
    (p.raws[2]? = some (ascii Keyword.byScore.name) ↔
      m = .score ∨ m = .numbers ∧ (min.isFloat = true ∨ max.isFloat = true)) ∧
    (p.raws[2]? = some (ascii Keyword.byLex.name) ↔ m = .lex) := by
  intro p
  obtain ⟨low, high, hlow, hhigh, hp⟩ := editAll_of_make hmake edits
  have hmode : p.mode = m.mode min max := congrArg Range.mode hp
  refine ⟨?_, ⟨low, high, hlow, hhigh, ?_⟩, ?_, ?_⟩
  · intro r
    obtain ⟨hok, hraws⟩ := addBuilt_range r p
    refine ⟨hok, hraws, ?_⟩
    rw [hraws, (addBuilt_range r q).2, List.append_cancel_left_eq, raws_inj, Value.range_eqv,
      beq_iff_eq]
  · have hparts := raws_eq p
    rw [hparts, show p = _ from hp]
  · rw [third_eq_keyword_iff (by decide) (by decide), hmode, ← mode_eq_score_iff m min max]
    cases m.mode min max <;> simp [Mode.keyword?]
  · rw [third_eq_keyword_iff (by decide) (by decide), hmode, ← mode_eq_lex_iff m min max]
    cases m.mode min max <;> simp [Mode.keyword?]

/-- Texts as bounds that read like keywords, and a window that fails after one that was set. -/
theorem eqv_iff_addBuilt_eq_bylex_rev :
    Maker.lex.make (.text "BYLEX") (.text "REV") =
        .ok ⟨.lex, ascii "BYLEX", ascii "REV", false, none⟩ ∧
      let p := (⟨.lex, ascii "BYLEX", ascii "REV", false, none⟩ : Range).editAll
        [.limit (.int 0) (.int 5), .limit (.int 1) .none]
      let q : Range := ⟨.index, ascii "BYLEX", ascii "REV", false, some (0, 5)⟩
      p.raws[2]? = some (ascii Keyword.byLex.name) ∧
        ((Value.range p).eqv (.range q) = true ↔
          ((Request.ofCommand (.command .zrange)).addBuilt (.range p)).1.raws =
            ((Request.ofCommand (.command .zrange)).addBuilt (.range q)).1.raws) := by
  have hmake : Maker.lex.make (.text "BYLEX") (.text "REV") =
      .ok ⟨.lex, ascii "BYLEX", ascii "REV", false, none⟩ := by rfl
  obtain ⟨hadds, -, -, hthird⟩ := eqv_iff_addBuilt_eq hmake
    [.limit (.int 0) (.int 5), .limit (.int 1) .none]
    ⟨.index, ascii "BYLEX", ascii "REV", false, some (0, 5)⟩
  exact ⟨hmake, hthird.mpr rfl, (hadds (Request.ofCommand (.command .zrange))).2.2⟩

end Range
end CommandWire
