import CommandWire.Conversion
import CommandWire.Proofs.Matcher.Agreement
import CommandWire.Proofs.Text.Damage

/-! Looking for a text among the arguments of a request is looking for the bytes of the text.

    The matcher reads every argument as text and compares texts. Damaged bytes are read as a text
    with a replacement in it, and no two byte strings are read as the same text without one, so a
    text without replacements is found just where its own bytes stand. -/

namespace CommandWire

namespace Argument

variable {a : Argument} {s : String}

theorem text_eq_iff (clean : Utf8.replacement ∉ s.toList) : a.text = s ↔ a.raw = Utf8.encode s :=
  Utf8.decode_eq_iff clean

theorem eqv_iff {b : Argument} : a.eqv b = true ↔ a.raw = b.raw := by
  rw [eqv, beq_iff_eq]

/-- A text is an argument of its own bytes. -/
theorem ofText_text (s : String) : ofText (.text s) = .ok (.blob (Utf8.encode s)) := rfl

end Argument

namespace Request

/-- The parameters are the arguments at the positions behind the command. -/
theorem mem_params_iff {r : Request} {a : Argument} :
    a ∈ r.params ↔ ∃ i : Int, 1 ≤ i ∧ r.at? i = some a := by
  constructor
  · intro ha
    obtain ⟨i, hi⟩ := List.mem_iff_getElem?.mp ha
    refine ⟨(i + 1 : Nat), by omega, ?_⟩
    rw [at?_natCast, arguments, List.getElem?_cons_succ, hi]
  · rintro ⟨i, hi, ha⟩
    obtain ⟨n, rfl⟩ : ∃ n : Nat, i = (n + 1 : Nat) := ⟨i.toNat - 1, by omega⟩
    rw [at?_natCast, arguments, List.getElem?_cons_succ] at ha
    exact List.mem_of_getElem? ha

end Request

namespace Matcher

variable {s : String} {c : Argument} {r : Request} {number : Nat}

/-- Where the command reads otherwise, the text has to be found in a parameter. -/
theorem matches_commandWith_iff (hc : c.text ≠ s) :
    (commandWith (.argument c) (.text s)).matches (.request number r) = true ↔
      c.raw = r.command.raw ∧ ∃ a ∈ r.params, a.text = s := by
  rw [commandWith, matches_allOf, List.all_cons, List.all_cons, List.all_nil, Bool.and_true,
    Bool.and_eq_true, matches_hasCommand_iff, matches_hasArgument_iff]
  refine and_congr_right fun hraw => ?_
  have hcommand : r.command.text ≠ s := by
    rwa [Argument.text, ← hraw]
  rw [Request.arguments, List.exists_mem_cons_iff]
  exact or_iff_right hcommand

/-- A text without replacements is found among the arguments of a request exactly if one of them,
    the command included, equals the argument that is made of the text. It is found together with a
    command that does not read as that text exactly if the request has this command and, at a
    position behind it, a parameter with just the bytes of the text. -/
theorem text_search_iff_bytes (clean : Utf8.replacement ∉ s.toList) (r : Request) (number : Nat) :
    ((hasArgument (.text s)).matches (.request number r) = true ↔
      ∃ e, Argument.ofText (.text s) = .ok e ∧ ∃ a ∈ r.arguments, e.eqv a = true) ∧
    ∀ c : Argument, c.text ≠ s →
      ((commandWith (.argument c) (.text s)).matches (.request number r) = true ↔
        r.command.eqv c = true ∧
          ∃ i : Int, 1 ≤ i ∧ ∃ a, r.at? i = some a ∧ a.raw = Utf8.encode s) := by
  constructor
  · rw [matches_hasArgument_iff]
    constructor
    · rintro ⟨a, ha, hs⟩
      refine ⟨_, Argument.ofText_text s, a, ha, ?_⟩
      rw [Argument.eqv_iff]
      exact ((Argument.text_eq_iff clean).mp hs).symm
    · rintro ⟨e, he, a, ha, heqv⟩
      obtain rfl := Except.ok.inj ((Argument.ofText_text s).symm.trans he)
      rw [Argument.eqv_iff] at heqv
      exact ⟨a, ha, (Argument.text_eq_iff clean).mpr heqv.symm⟩
  · intro c hc
    rw [matches_commandWith_iff hc, Argument.eqv_iff, eq_comm]
    refine and_congr_right fun _ => ?_
    constructor
    · rintro ⟨a, ha, hs⟩
      obtain ⟨i, hi, hat⟩ := Request.mem_params_iff.mp ha
      exact ⟨i, hi, a, hat, (Argument.text_eq_iff clean).mp hs⟩
    · rintro ⟨i, hi, a, hat, hraw⟩
      exact ⟨a, Request.mem_params_iff.mpr ⟨i, hi, hat⟩, (Argument.text_eq_iff clean).mpr hraw⟩

/-- The two bytes of one character stand in the last parameter, and in the one before it the first
    of them alone. -/
theorem text_search_iff_bytes_torn :
    Utf8.replacement ∉ "é".toList ∧ (Argument.command .get).text ≠ "é" ∧
      let r : Request := ⟨.command .get, [.blob [0xC3], .blob [0xC3, 0xA9]]⟩
      (hasArgument (.text "é")).matches (.request 0 r) = true ∧
        (commandWith (.argument (.command .get)) (.text "é")).matches (.request 0 r) = true := by
  have clean : Utf8.replacement ∉ "é".toList := by decide +kernel
  have apart : (Argument.command .get).text ≠ "é" := by decide +kernel
  refine ⟨clean, apart, ?_⟩
  intro r
  obtain ⟨hsearch, hwith⟩ := text_search_iff_bytes clean r 0
  constructor
  · rw [hsearch]
    exact ⟨_, Argument.ofText_text _, .blob [0xC3, 0xA9], by decide, by decide⟩
  · rw [hwith _ apart]
    exact ⟨by decide, 2, by decide, .blob [0xC3, 0xA9], by decide, by decide⟩

-- with a replacement in it, a text is found where there are only damaged bytes
example : (hasArgument (.text "\uFFFD")).matches (.request 0 ⟨.command .get, [.blob [0xC3]]⟩) =
    true := by decide +kernel

end Matcher
end CommandWire
