import CommandWire.Proofs.Conversion.Ascii
import CommandWire.Proofs.Range.Making
import CommandWire.Proofs.Text.Quoted
import CommandWire.Value.Equality

/-! What is shown of a request or of a range says which one it is, as far as texts can.

    A request is shown by the texts of its arguments, and a range by all of its parts, each of which
    says itself where it ends, whatever stands behind it:

        word         none is the beginning of another
        bound        a quoted text
        window       a word, or two numbers, each with a character behind it that no number has

    What the two lose is what decoding loses. A request may carry any bytes, so it is told up to the
    texts of its arguments. The bounds of a range were made from numbers or texts, so they are the
    encodings of texts, and there decoding loses nothing. -/

namespace CommandWire

/-! ### Requests -/

theorem Request.shown_inj {a b : Request} : a.shown = b.shown ↔
    a.arguments.map Argument.text = b.arguments.map Argument.text := by
  refine Iff.trans ?_ Argument.bracketed_quoted_inj
  unfold shown
  simp only [List.append_cancel_right_eq, List.append_cancel_left_eq]

/-! ### The parts of a range -/

theorem boolChars_selfDelimiting : SelfDelimiting boolChars := by
  refine .of_prefixFree fun a b => ?_
  cases a <;> cases b <;> decide +kernel

namespace Decimal

theorem intChars_injective : Function.Injective intChars := by
  intro m n h
  have hbytes := congrArg Scientific.toBytes h
  rwa [toBytes_intChars, toBytes_intChars, intBytes_inj] at hbytes

/-- A number has no comma and no bracket. -/
theorem not_mem_intChars {stop : Char} (h : stop = ',' ∨ stop = ')') (n : Int) :
    stop ∉ intChars n := by
  intro hmem
  have hbyte : UInt8.ofNat stop.toNat ∈ intBytes n := by
    rw [← toBytes_intChars]
    exact List.mem_map_of_mem hmem
  rcases eq_minus_or_isDigit_of_mem_intBytes hbyte with hminus | hdigit
  · rcases h with rfl | rfl <;> exact absurd hminus (by decide)
  · rcases h with rfl | rfl <;> exact absurd hdigit.1 (by decide)

theorem intChars_selfDelimiting {stop : Char} (h : stop = ',' ∨ stop = ')') :
    SelfDelimiting fun n : Int64 => intChars n.toInt ++ [stop] :=
  (SelfDelimiting.of_injective intChars_injective (not_mem_intChars h)).comp
    fun _ _ => Int64.toInt_inj.mp

end Decimal

namespace Range

/-- The word for what the bounds are bounds of, as it is shown. -/
def modeShown (mode : Mode) : List Char :=
  match mode.keyword? with
  | none => "None".toList
  | some k => (Argument.keyword k).shown

/-- A window, as it is shown. -/
def windowShown : Option (Int64 × Int64) → List Char
  | none => "None".toList
  | some (offset, count) =>
    '(' :: (Decimal.intChars offset.toInt ++ ", ".toList
      ++ Decimal.intChars count.toInt ++ [')'])

/-- A bound, as it is shown, by its text. -/
def boundShown (s : String) : List Char := "RawParam(".toList ++ Quoted.text s.toList ++ [')']

theorem modeShown_selfDelimiting : SelfDelimiting modeShown := by
  refine .of_prefixFree fun a b => ?_
  cases a <;> cases b <;> decide +kernel

theorem windowShown_selfDelimiting : SelfDelimiting windowShown := by
  have hnumbers := (Decimal.intChars_selfDelimiting (.inl rfl)).seq
    ((Decimal.intChars_selfDelimiting (.inr rfl)).prepend [' '])
  have hsame : windowShown = fun window => window.elim "None".toList fun w =>
      ['('] ++ (Decimal.intChars w.1.toInt ++ [','] ++
        ([' '] ++ (Decimal.intChars w.2.toInt ++ [')']))) := by
    funext window
    rcases window with _ | ⟨offset, count⟩
    · rfl
    · simp [windowShown]
  rw [hsame]
  exact (hnumbers.prepend ['(']).option fun _ _ _ heq => by cases heq

theorem boundShown_selfDelimiting : SelfDelimiting boundShown :=
  (Argument.quotedText_selfDelimiting.prepend "RawParam(".toList).append [')']

/-! ### A whole range -/

/-- The parts of a range by which it is shown: of the bounds, only their texts. -/
def parts (p : Range) : Mode × String × String × Bool × Option (Int64 × Int64) :=
  (p.mode, Utf8.decode p.min, Utf8.decode p.max, p.reversed, p.window)

/-- The parts of a range, as they are shown behind their names. -/
def partsShown (q : Mode × String × String × Bool × Option (Int64 × Int64)) : List Char :=
  ("ZRangeParams(by=".toList ++ modeShown q.1) ++
    ((", min=".toList ++ boundShown q.2.1) ++
      ((", max=".toList ++ boundShown q.2.2.1) ++
        ((", rev=".toList ++ boolChars q.2.2.2.1) ++
          ((", limit=".toList ++ windowShown q.2.2.2.2) ++ [')']))))

theorem partsShown_selfDelimiting : SelfDelimiting partsShown :=
  (modeShown_selfDelimiting.prepend _).seq <| (boundShown_selfDelimiting.prepend _).seq <|
    (boundShown_selfDelimiting.prepend _).seq <| (boolChars_selfDelimiting.prepend _).seq <|
      (windowShown_selfDelimiting.prepend _).append [')']

theorem shown_eq_partsShown (p : Range) : p.shown = partsShown p.parts := by
  have hshown : p.shown = "ZRangeParams(by=".toList ++ modeShown p.mode
      ++ ", min=".toList ++ boundShown (Utf8.decode p.min)
      ++ ", max=".toList ++ boundShown (Utf8.decode p.max)
      ++ ", rev=".toList ++ boolChars p.reversed
      ++ ", limit=".toList ++ windowShown p.window ++ [')'] := rfl
  rw [hshown]
  unfold partsShown parts
  simp only [List.append_assoc]

theorem shown_eq_iff_parts {p q : Range} : p.shown = q.shown ↔ p.parts = q.parts := by
  rw [shown_eq_partsShown, shown_eq_partsShown]
  exact partsShown_selfDelimiting.injective.eq_iff

/-! ### Ranges that can be reached -/

/-- A range that can be reached: made in any way from bounds that were accepted, and then changed by
    any calls, failed ones among them. -/
inductive Reachable : Range → Prop where
  | made {m : Maker} {min max : Value} {p : Range} (make : m.make min max = .ok p)
      (edits : List Edit) : Reachable (p.editAll edits)

theorem isText_of_boundBytes {mode : Mode} {v : Value} {s : Bytes}
    (h : boundBytes mode v = .ok s) : Utf8.IsText s := by
  cases mode with
  | index => exact Value.isText_of_int64Bytes h
  | score => exact Value.isText_of_floatBytes h
  | lex => exact Value.isText_of_textBytes h

/-- Its bounds are the encodings of texts. -/
theorem Reachable.isText {p : Range} (h : p.Reachable) : Utf8.IsText p.min ∧ Utf8.IsText p.max := by
  obtain ⟨make, edits⟩ := h
  obtain ⟨low, high, hlow, hhigh, hp⟩ := editAll_of_make make edits
  rw [hp]
  exact ⟨isText_of_boundBytes hlow, isText_of_boundBytes hhigh⟩

theorem Reachable.parts_inj {p q : Range} (hp : p.Reachable) (hq : q.Reachable) :
    p.parts = q.parts ↔ p = q := by
  refine ⟨fun h => ?_, congrArg parts⟩
  obtain ⟨hpmin, hpmax⟩ := hp.isText
  obtain ⟨hqmin, hqmax⟩ := hq.isText
  obtain ⟨mode, min, max, reversed, window⟩ := p
  simp only [parts, Prod.mk.injEq] at h
  obtain ⟨rfl, hmin, hmax, rfl, rfl⟩ := h
  obtain rfl := hpmin.decode_inj hqmin hmin
  obtain rfl := hpmax.decode_inj hqmax hmax
  rfl

end Range

/-- Requests are shown alike exactly if the texts of their arguments are the same, one by one,
    whatever these texts are. Ranges that can be reached are shown alike exactly if they are
    equal. -/
theorem shown_unambiguous :
    (∀ a b : Request, a.shown = b.shown ↔
      a.arguments.map Argument.text = b.arguments.map Argument.text) ∧
    ∀ p q : Range, p.Reachable → q.Reachable →
      (p.shown = q.shown ↔ (Value.range p).eqv (.range q) = true) := by
  refine ⟨fun _ _ => Request.shown_inj, fun p q hp hq => ?_⟩
  rw [Range.shown_eq_iff_parts, hp.parts_inj hq, Value.range_eqv, beq_iff_eq]

/-- Bounds that read like what stands between two bounds, and an argument that reads like what
    stands between two arguments. -/
theorem shown_unambiguous_nested :
    let p : Range := ⟨.lex, ascii "a'), max=RawParam('b", ascii "c", true, none⟩
    let q : Range := ⟨.lex, ascii "a", ascii "b'), max=RawParam('c", true, none⟩
    let a : Request := ⟨.command .get, [.blob (ascii "x', 'y")]⟩
    let b : Request := ⟨.command .get, [.blob (ascii "x"), .blob (ascii "y")]⟩
    p.Reachable ∧ q.Reachable ∧ p.shown ≠ q.shown ∧ a.shown ≠ b.shown := by
  intro p q a b
  have hmake : Range.Maker.lex.make (.text "a'), max=RawParam('b") (.text "c") =
      .ok { p with reversed := false } := rfl
  have hmake' : Range.Maker.lex.make (.text "a") (.text "b'), max=RawParam('c") =
      .ok { q with reversed := false } := rfl
  have hp : p.Reachable := .made hmake [.reverse]
  have hq : q.Reachable := .made hmake' [.reverse]
  refine ⟨hp, hq, ?_, ?_⟩
  · rw [Ne, shown_unambiguous.2 p q hp hq]
    decide +kernel
  · rw [Ne, shown_unambiguous.1 a b]
    intro hsame
    cases congrArg List.length hsame

end CommandWire
