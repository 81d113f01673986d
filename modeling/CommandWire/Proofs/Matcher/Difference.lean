import CommandWire.Matcher.Report
import CommandWire.Proofs.Matcher.Agreement
import CommandWire.Proofs.Text.Quoted
import CommandWire.Proofs.Text.Utf8

/-! What the reader of a mismatch gets to see.

    A test for certain arguments compares their bytes, but words show texts. Quoting keeps texts
    apart; reading bytes as text keeps them apart only among the encodings of texts, since whatever
    is damaged is read as U+FFFD:

        bytes ──────────▶ text ──────────▶ words
               read as           quoted

    So what is asked for and what was found look the same in words exactly if their texts are the
    same, and then somewhere damaged bytes were compared. -/

namespace CommandWire

/-! ### Tests for certain arguments -/

/-- An index that can be put into words, whether or not it names a place. -/
structure Position where
  value : Value
  words : List Char
  shown : value.plain = .ok words

/-- An integer as an index. -/
def Position.ofInt (i : Int) : Position := ⟨.int i, Decimal.intChars i, rfl⟩

/-- What is said of a request in which the index names no place. -/
def Position.outside (i : Position) (r : Request) : List Char :=
  "index ".toList ++ i.words ++ " is out of bounds (size: ".toList ++ Decimal.natChars r.size
    ++ [')']

/-- Arguments that a request should have: its command, the one at a place, or all of them. -/
inductive Wanted where
  | command (expected : Argument)
  | place (index : Position) (expected : Argument)
  | all (expected : List Argument)

namespace Wanted

/-- The test for them. -/
def matcher : Wanted → Matcher
  | .command e => .hasCommand (.argument e)
  | .place i e => .hasArgumentAt i.value (.argument e)
  | .all es => .hasArguments (es.map .argument)

/-- What is asked for. -/
def expected : Wanted → List Argument
  | .command e => [e]
  | .place _ e => [e]
  | .all es => es

/-- What a request has there, if there is such a place. -/
def actual? : Wanted → Request → Option (List Argument)
  | .command _, r => some [r.command]
  | .place i _, r => (r.argumentAt? i.value).map ([·])
  | .all _, r => some r.arguments

/-- Arguments in words: a single one by its quoted text, all of them as a list in brackets. -/
def quote (w : Wanted) (as : List Argument) : List Char :=
  match w with
  | .all _ => bracketed (as.map (·.quoted))
  | _ => joined [] (as.map (·.quoted))

/-- The words in front of what is asked for. -/
def asking : Wanted → List Char
  | .command _ => "CommandArguments with command ".toList
  | .place i _ => "CommandArguments with argument at index ".toList ++ i.words
      ++ " equal to ".toList
  | .all _ => "CommandArguments with arguments ".toList

/-- The words in front of what was found. -/
def finding : Wanted → List Char
  | .command _ => "was CommandArguments with command ".toList
  | .place i _ => "argument at index ".toList ++ i.words ++ " was ".toList
  | .all _ => "was CommandArguments with arguments ".toList

/-- All that is asked for, in words. -/
def asked (w : Wanted) : List Char := w.asking ++ w.quote w.expected

variable {w : Wanted} {r : Request} {actual : List Argument}

/-- The test compares bytes. -/
theorem matches_iff (number : Nat) : w.matcher.matches (.request number r) = true ↔
    (w.actual? r).map (·.map Argument.raw) = some (w.expected.map Argument.raw) := by
  cases w with
  | command e =>
    rw [matcher, Matcher.matches_hasCommand_iff]
    show _ ↔ some [r.command.raw] = some [e.raw]
    rw [Option.some_inj, List.singleton_inj, eq_comm]
  | place i e =>
    rw [matcher, Matcher.matches_hasArgumentAt_value_iff, actual?, expected]
    cases r.argumentAt? i.value <;> simp
  | all es =>
    rw [matcher, Matcher.matches_hasArguments_iff]
    show _ ↔ some r.raws = some (es.map Argument.raw)
    rw [Option.some_inj, eq_comm]

/-! ### Its words -/

theorem mapM_toArgument (es : List Argument) :
    (es.map Value.argument).mapM Value.toArgument = .ok es := by
  induction es with
  | nil => rfl
  | cons e es ih =>
    rw [List.map_cons, List.mapM_cons, ih]
    rfl

theorem described_eq : w.matcher.described = .ok w.asked := by
  cases w with
  | command e => rfl
  | place i e =>
    have hwords : i.value.plainOr i.value.shown = .ok i.words := i.shown
    rw [matcher, Matcher.described, hwords]
    rfl
  | all es =>
    rw [matcher, Matcher.described, mapM_toArgument]
    rfl

theorem mismatch_of_some (number : Nat) (h : w.actual? r = some actual) :
    w.matcher.mismatch (.request number r) = .ok (w.finding ++ w.quote actual) := by
  cases w with
  | command e =>
    cases h
    rfl
  | place i e =>
    obtain ⟨a, ha, rfl⟩ := Option.map_eq_some_iff.mp h
    rw [matcher, Matcher.mismatch, i.shown, ha]
    rfl
  | all es =>
    cases h
    rfl

/-- Only an index can fail to name anything. -/
theorem mismatch_of_none (number : Nat) (h : w.actual? r = none) :
    ∃ i e, w = .place i e ∧ w.matcher.mismatch (.request number r) = .ok (i.outside r) := by
  cases w with
  | command e => cases h
  | place i e =>
    have hnone := Option.map_eq_none_iff.mp h
    refine ⟨i, e, rfl, ?_⟩
    rw [matcher, Matcher.mismatch, i.shown, hnone]
    rfl
  | all es => cases h

/-- Quoted alike is read alike. -/
theorem quote_inj (h : w.actual? r = some actual) : w.quote w.expected = w.quote actual ↔
    w.expected.map Argument.text = actual.map Argument.text := by
  cases w with
  | command e =>
    cases h
    show e.quoted = r.command.quoted ↔ [e.text] = [r.command.text]
    rw [Argument.quoted_inj, List.singleton_inj]
  | place i e =>
    obtain ⟨a, -, rfl⟩ := Option.map_eq_some_iff.mp h
    show e.quoted = a.quoted ↔ [e.text] = [a.text]
    rw [Argument.quoted_inj, List.singleton_inj]
  | all es => exact Argument.bracketed_quoted_inj

end Wanted

/-- The words of a failed assertion. -/
def Matcher.report (asked found : List Char) (reason : String) : String :=
  String.ofList ((if reason = "" then [] else reason.toList ++ ['\n'])
    ++ ("Expected: ".toList ++ asked ++ "\n     but: ".toList ++ found))

theorem Matcher.check_of_not_matches {m : Matcher} {item : Value} {asked found : List Char}
    (hm : m.matches item = false) (hasked : m.described = .ok asked)
    (hfound : m.mismatch item = .ok found) (reason : String) :
    m.check item reason = .error (.mismatch (report asked found reason)) := by
  rw [check, hm, hasked, hfound, report]
  by_cases hreason : reason = ""
  · simp [hreason, bind, Except.bind]
  · simp [hreason, bind, Except.bind]

/-! ### Damage -/

/-- Two arguments that differ in bytes and not in their texts. -/
structure Argument.Lookalike (a b : Argument) : Prop where
  raw_ne : a.raw ≠ b.raw
  text_eq : a.text = b.text

namespace Argument

/-- They cannot both be the encoding of a text. -/
theorem Lookalike.damaged {a b : Argument} (h : a.Lookalike b) :
    ¬(Utf8.IsText a.raw ∧ Utf8.IsText b.raw) := by
  rintro ⟨ha, hb⟩
  exact h.raw_ne (ha.decode_inj hb h.text_eq)

/-- Where lists differ in bytes and not in texts, two arguments do so at one place. -/
theorem exists_lookalike {as bs : List Argument} (htext : as.map text = bs.map text)
    (hraw : as.map raw ≠ bs.map raw) : ∃ a b, (a, b) ∈ as.zip bs ∧ a.Lookalike b := by
  induction as generalizing bs with
  | nil =>
    cases bs with
    | nil => exact absurd rfl hraw
    | cons b bs => cases htext
  | cons a as ih =>
    cases bs with
    | nil => cases htext
    | cons b bs =>
      obtain ⟨hhead, htail⟩ := List.cons.inj htext
      by_cases hab : a.raw = b.raw
      · have hrest : as.map raw ≠ bs.map raw := by
          intro h
          exact hraw (by rw [List.map_cons, List.map_cons, hab, h])
        obtain ⟨c, d, hmem, hcd⟩ := ih htail hrest
        exact ⟨c, d, List.mem_cons_of_mem _ hmem, hcd⟩
      · exact ⟨a, b, List.mem_cons_self, hab, hhead⟩

end Argument

namespace Wanted

/-- A test for certain arguments that does not accept a request can say so, and an assertion passes
    it on: either that the index names no place, or what was found there. What was found is in words
    the same as what was asked for exactly if the texts are the same, and then two arguments look
    alike, not both of which are the encoding of a text. -/
theorem mismatch_shows_difference (w : Wanted) (number : Nat) (r : Request) (reason : String)
    (h : w.matcher.matches (.request number r) = false) :
    ∃ found,
      w.matcher.described = .ok w.asked ∧
      w.matcher.mismatch (.request number r) = .ok found ∧
      w.matcher.check (.request number r) reason =
        .error (.mismatch (Matcher.report w.asked found reason)) ∧
      ((∃ i e, w = .place i e ∧ r.argumentAt? i.value = none ∧ found = i.outside r) ∨
        ∃ actual, w.actual? r = some actual ∧ found = w.finding ++ w.quote actual ∧
          (w.quote w.expected = w.quote actual ↔
            w.expected.map Argument.text = actual.map Argument.text) ∧
          (w.quote w.expected = w.quote actual → ∃ e a, (e, a) ∈ w.expected.zip actual ∧
            e.Lookalike a ∧ ¬(Utf8.IsText e.raw ∧ Utf8.IsText a.raw))) := by
  have hdescribed : w.matcher.described = .ok w.asked := described_eq
  cases hactual : w.actual? r with
  | none =>
    obtain ⟨i, e, rfl, hfound⟩ := mismatch_of_none number hactual
    exact ⟨i.outside r, hdescribed, hfound, Matcher.check_of_not_matches h hdescribed hfound reason,
      .inl ⟨i, e, rfl, Option.map_eq_none_iff.mp hactual, rfl⟩⟩
  | some actual =>
    have hfound := mismatch_of_some number hactual
    have hquote := quote_inj hactual
    refine ⟨_, hdescribed, hfound, Matcher.check_of_not_matches h hdescribed hfound reason,
      .inr ⟨actual, rfl, rfl, hquote, ?_⟩⟩
    intro hsame
    have hraw : w.expected.map Argument.raw ≠ actual.map Argument.raw := by
      intro heq
      have hmatches : w.matcher.matches (.request number r) = true :=
        (matches_iff number).mpr (by rw [hactual, Option.map_some, heq])
      exact Bool.false_ne_true (h.symm.trans hmatches)
    obtain ⟨e, a, hmem, hlike⟩ := Argument.exists_lookalike (hquote.mp hsame) hraw
    exact ⟨e, a, hmem, hlike, hlike.damaged⟩

/-- A request for `bar` is seen to be none for `foo`: both are the encoding of a text. -/
theorem mismatch_shows_difference_foo :
    let foo := Argument.blob (Utf8.encode "foo")
    let bar := Argument.blob (Utf8.encode "bar")
    let w := Wanted.place (.ofInt 1) foo
    let r : Request := ⟨.command .get, [bar]⟩
    w.matcher.matches (.request 0 r) = false ∧
      w.matcher.described = .ok w.asked ∧
      w.matcher.mismatch (.request 0 r) = .ok (w.finding ++ w.quote [bar]) ∧
      w.quote w.expected ≠ w.quote [bar] := by
  intro foo bar w r
  have hmatches : w.matcher.matches (.request 0 r) = false := rfl
  have hactual : w.actual? r = some [bar] := rfl
  obtain ⟨found, hasked, hfound, -, houtside | ⟨actual, hsome, rfl, -, hlike⟩⟩ :=
    mismatch_shows_difference w 0 r "" hmatches
  · obtain ⟨i, e, hw, hnone, -⟩ := houtside
    obtain ⟨rfl, -⟩ := Wanted.place.inj hw
    cases hnone
  · obtain rfl := Option.some.inj (hactual.symm.trans hsome)
    refine ⟨hmatches, hasked, hfound, fun hsame => ?_⟩
    obtain ⟨e, a, hmem, -, hdamaged⟩ := hlike hsame
    have hpair : (e, a) = (foo, bar) := List.mem_singleton.mp hmem
    obtain ⟨rfl, rfl⟩ := Prod.mk.inj hpair
    exact hdamaged ⟨⟨"foo", rfl⟩, "bar", rfl⟩

/-- Bytes that cannot begin a character all look alike: a test for one of them does not accept a
    request for another, and says that it found just what it was asked for. -/
theorem damaged_bytes_look_alike :
    let w := Wanted.command (.blob [0xFF])
    let r : Request := ⟨.blob [0xFE], []⟩
    let shown := ['\'', '\uFFFD', '\'']
    w.matcher.matches (.request 0 r) = false ∧
      w.matcher.described = .ok ("CommandArguments with command ".toList ++ shown) ∧
      w.matcher.mismatch (.request 0 r) =
        .ok ("was CommandArguments with command ".toList ++ shown) := by
  intro w r shown
  have hasked : (Argument.blob [0xFF]).quoted = shown := by decide +kernel
  have hfound : r.command.quoted = shown := by decide +kernel
  refine ⟨rfl, ?_, ?_⟩
  · rw [← hasked]
    rfl
  · rw [← hfound]
    rfl

end Wanted
end CommandWire
