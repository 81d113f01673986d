import Mathlib.Algebra.Group.Nat.Defs
import Mathlib.Tactic.SplitIfs
import CommandWire.Value.Printed

/-! Quoted texts can be told apart, and so can lists of them.

    What is written for a character says itself where it ends: after a backslash stands a letter,
    and the letter tells how many digits follow. It never begins with the quote around the text, so
    the first quote that does not belong to a character ends the text; and a quoted text never
    begins with a comma or a bracket, so what follows it tells whether the list goes on:

        character ──quote──▶ quoted text ──`, ` or `]`──▶ list in brackets

    None of this looks at what comes behind the end. -/

namespace CommandWire

/-! ### Writing that tells where it ends -/

/-- Whatever comes behind it, what was written is the writing of one thing only. -/
def SelfDelimiting {α : Type} (write : α → List Char) : Prop :=
  ∀ ⦃a b : α⦄ ⦃x y : List Char⦄, write a ++ x = write b ++ y → a = b ∧ x = y

namespace SelfDelimiting

variable {α : Type} {write : α → List Char}

theorem injective (h : SelfDelimiting write) : Function.Injective write := fun _ _ heq =>
  (h (congrArg (· ++ []) heq)).1

/-- The same characters in front change nothing. -/
theorem prepend (h : SelfDelimiting write) (front : List Char) :
    SelfDelimiting fun a => front ++ write a := by
  intro a b x y heq
  simp only [List.append_assoc] at heq
  exact h (List.append_cancel_left heq)

/-- Nor do the same characters behind. -/
theorem append (h : SelfDelimiting write) (back : List Char) :
    SelfDelimiting fun a => write a ++ back := by
  intro a b x y heq
  simp only [List.append_assoc] at heq
  obtain ⟨rfl, hrest⟩ := h heq
  exact ⟨rfl, List.append_cancel_left hrest⟩

/-- Nor does it matter how the things are named. -/
theorem comp (h : SelfDelimiting write) {β : Type} {name : β → α} (hname : name.Injective) :
    SelfDelimiting fun b => write (name b) := fun _ _ _ _ heq =>
  ⟨hname (h heq).1, (h heq).2⟩

/-- One thing behind another. -/
theorem seq (h : SelfDelimiting write) {β : Type} {write' : β → List Char}
    (h' : SelfDelimiting write') : SelfDelimiting fun p : α × β => write p.1 ++ write' p.2 := by
  rintro ⟨a, b⟩ ⟨a', b'⟩ x y heq
  simp only [List.append_assoc] at heq
  obtain ⟨rfl, hrest⟩ := h heq
  obtain ⟨rfl, rfl⟩ := h' hrest
  exact ⟨rfl, rfl⟩

/-- A thing or a word for nothing, if nothing else begins like the word. -/
theorem option (h : SelfDelimiting write) {nothing : List Char}
    (hnothing : ∀ a x y, write a ++ x ≠ nothing ++ y) :
    SelfDelimiting fun o : Option α => o.elim nothing write := by
  rintro (_ | a) (_ | b) x y heq
  · exact ⟨rfl, List.append_cancel_left heq⟩
  · exact absurd heq.symm (hnothing b y x)
  · exact absurd heq (hnothing a x y)
  · obtain ⟨rfl, rfl⟩ := h heq
    exact ⟨rfl, rfl⟩

/-- Words of which none is the beginning of another. -/
theorem of_prefixFree (h : ∀ a b, write a <+: write b → a = b) : SelfDelimiting write := by
  intro a b x y heq
  have hab : a = b := by
    rcases List.prefix_or_prefix_of_prefix (heq ▸ List.prefix_append (write a) x)
      (List.prefix_append (write b) y) with hle | hle
    · exact h a b hle
    · exact (h b a hle).symm
  subst hab
  exact ⟨rfl, List.append_cancel_left heq⟩

/-- Different writings with a character behind them that stands in none. -/
theorem of_injective (hinj : write.Injective) {stop : Char} (hstop : ∀ a, stop ∉ write a) :
    SelfDelimiting fun a => write a ++ [stop] := by
  refine of_prefixFree fun a b hle => hinj ?_
  rcases List.prefix_concat_iff.mp hle with heq | hle
  · exact List.append_cancel_right heq
  · exact absurd (hle.mem (by simp)) (hstop b)

/-- Things written one behind the other end at a character that begins none of them. -/
theorem flatMap_until (h : SelfDelimiting write) {stop : Char}
    (hstop : ∀ a x y, write a ++ x ≠ stop :: y) {as bs : List α} {x y : List Char}
    (heq : as.flatMap write ++ stop :: x = bs.flatMap write ++ stop :: y) : as = bs ∧ x = y := by
  induction as generalizing bs with
  | nil =>
    cases bs with
    | nil => exact ⟨rfl, (List.cons.inj heq).2⟩
    | cons b bs =>
      rw [List.flatMap_cons, List.append_assoc] at heq
      exact absurd heq.symm (hstop b _ _)
  | cons a as ih =>
    rw [List.flatMap_cons, List.append_assoc] at heq
    cases bs with
    | nil => exact absurd heq (hstop a _ _)
    | cons b bs =>
      rw [List.flatMap_cons, List.append_assoc] at heq
      obtain ⟨rfl, hrest⟩ := h heq
      obtain ⟨rfl, rfl⟩ := ih hrest
      exact ⟨rfl, rfl⟩

end SelfDelimiting

/-! ### One character -/

namespace Quoted

/-- The value of a hexadecimal digit. -/
def digitValue (c : Char) : Nat := if c ≤ '9' then c.toNat - 48 else c.toNat - 87

/-- The number that hexadecimal digits stand for. -/
def hexValue (ds : List Char) : Nat := ds.foldl (fun n d => 16 * n + digitValue d) 0

/-- How many digits follow a letter behind a backslash, if any. -/
def width? : Char → Option Nat
  | 'x' => some 2
  | 'u' => some 4
  | 'U' => some 8
  | _ => none

/-- What a letter behind a backslash stands for without digits. -/
def unletter : Char → Char
  | 't' => '\t'
  | 'n' => '\n'
  | 'r' => '\r'
  | c => c

/-- Reads a character back, and returns what comes behind it. -/
def unescape : List Char → Option (Char × List Char)
  | [] => none
  | ['\\'] => none
  | '\\' :: letter :: rest =>
    match width? letter with
    | some width => some (Char.ofNat (hexValue (rest.take width)), rest.drop width)
    | none => some (unletter letter, rest)
  | c :: rest => some (c, rest)

theorem unescape_of_ne {c : Char} (h : c ≠ '\\') (rest : List Char) :
    unescape (c :: rest) = some (c, rest) := by
  rw [unescape]
  · rintro rfl -
    exact h rfl
  · rintro letter rest rfl -
    exact h rfl

theorem length_hex (width n : Nat) : (hex width n).length = width := by
  induction width generalizing n with
  | zero => rfl
  | succ width ih => rw [hex, List.length_append, ih, List.length_singleton]

theorem digitValue_digitChar : ∀ d < 16, digitValue (Nat.digitChar d) = d := by decide

theorem hexValue_hex {width n : Nat} (h : n < 16 ^ width) : hexValue (hex width n) = n := by
  induction width generalizing n with
  | zero =>
    have hn : n < 1 := h
    rw [Nat.lt_one_iff.mp hn]
    rfl
  | succ width ih =>
    have hfront : hexValue (hex width (n / 16)) = n / 16 :=
      ih (Nat.div_lt_of_lt_mul (by rwa [Nat.mul_comm, ← Nat.pow_succ]))
    have hlast : digitValue (Nat.digitChar (n % 16)) = n % 16 :=
      digitValue_digitChar _ (Nat.mod_lt n (by decide))
    rw [hexValue] at hfront
    rw [hex, hexValue, List.foldl_append, hfront, List.foldl_cons, List.foldl_nil, hlast]
    exact Nat.div_add_mod n 16

theorem unescape_hex {letter c : Char} {width : Nat} (hletter : width? letter = some width)
    (hc : c.toNat < 16 ^ width) (rest : List Char) :
    unescape ('\\' :: letter :: (hex width c.toNat ++ rest)) = some (c, rest) := by
  have hlength := length_hex width c.toNat
  rw [unescape, hletter]
  show some (Char.ofNat (hexValue _), _) = _
  rw [List.take_left' hlength, List.drop_left' hlength, hexValue_hex hc, Char.ofNat_toNat]

variable {plain : Char → Bool} {quote : Char}

theorem mark_cases (cs : List Char) : mark cs = '\'' ∨ mark cs = '"' := by
  rw [mark]
  split
  · exact .inr rfl
  · exact .inl rfl

/-- A character in a quoted text is read back. -/
theorem unescape_escape (hquote : quote = '\'' ∨ quote = '"') (c : Char) (rest : List Char) :
    unescape (escape plain [quote, '\\'] c ++ rest) = some (c, rest) := by
  rw [escape]
  split
  · next hmarked =>
    have hc : c = quote ∨ c = '\\' := by simpa using hmarked
    rcases hc with rfl | rfl
    · rcases hquote with rfl | rfl <;> rfl
    · rfl
  · next hmarked =>
    have hne : c ≠ '\\' := by
      rintro rfl
      simp at hmarked
    split_ifs with htab hfeed hreturn hplain htwo hfour
    · rw [htab]; rfl
    · rw [hfeed]; rfl
    · rw [hreturn]; rfl
    · exact unescape_of_ne hne rest
    · exact unescape_hex rfl htwo rest
    · exact unescape_hex rfl hfour rest
    · exact unescape_hex rfl c.val.toNat_lt rest

theorem escape_selfDelimiting (hquote : quote = '\'' ∨ quote = '"') :
    SelfDelimiting (escape plain [quote, '\\']) := by
  intro a b x y heq
  have hread := congrArg unescape heq
  rw [unescape_escape hquote, unescape_escape hquote] at hread
  exact Prod.mk.inj (Option.some.inj hread)

/-- No character begins with the quote around it. -/
theorem escape_ne_quote (hquote : quote = '\'' ∨ quote = '"') (c : Char) (x y : List Char) :
    escape plain [quote, '\\'] c ++ x ≠ quote :: y := by
  intro heq
  have hread := congrArg unescape heq
  have hne : quote ≠ '\\' := by rcases hquote with rfl | rfl <;> decide
  rw [unescape_escape hquote, unescape_of_ne hne] at hread
  obtain ⟨rfl, -⟩ := Prod.mk.inj (Option.some.inj hread)
  rw [escape, if_pos (by simp)] at heq
  exact hne (List.cons.inj heq).1.symm

/-! ### A text, and a list of texts -/

theorem text_selfDelimiting : SelfDelimiting text := by
  intro s t x y heq
  rw [text, text, write, write, List.cons_append, List.cons_append] at heq
  obtain ⟨hmark, hbody⟩ := List.cons.inj heq
  have hquote := mark_cases t
  rw [hmark, List.append_assoc, List.append_assoc] at hbody
  exact (escape_selfDelimiting hquote).flatMap_until (escape_ne_quote hquote) hbody

/-- A quoted text begins with a quote. -/
theorem text_ne {stop : Char} (hsingle : stop ≠ '\'') (hdouble : stop ≠ '"') (s x y : List Char) :
    text s ++ x ≠ stop :: y := by
  intro heq
  obtain ⟨hmark, -⟩ := List.cons.inj heq
  rcases mark_cases s with h | h
  · exact hsingle (hmark.symm.trans h)
  · exact hdouble (hmark.symm.trans h)

end Quoted

theorem joined_cons (separator x : List Char) (xs : List (List Char)) :
    joined separator (x :: xs) = x ++ xs.flatMap (separator ++ ·) := by
  induction xs generalizing x with
  | nil => exact (List.append_nil x).symm
  | cons x' xs ih =>
    rw [joined, ih, List.flatMap_cons, List.append_assoc, List.append_assoc]
    exact List.cons_ne_nil x' xs

/-- A list in brackets ends where it ends, if its items do and none begins with a bracket. -/
theorem SelfDelimiting.bracketed {α : Type} {write : α → List Char} (h : SelfDelimiting write)
    (hbracket : ∀ a x y, write a ++ x ≠ ']' :: y) :
    SelfDelimiting fun as : List α => CommandWire.bracketed (as.map write) := by
  have hbody : ∀ a as x, CommandWire.bracketed ((a :: as).map write) ++ x =
      '[' :: (write a ++ (as.flatMap ([',', ' '] ++ write ·) ++ ']' :: x)) := by
    intro a as x
    rw [CommandWire.bracketed, List.map_cons, joined_cons, List.flatMap_map]
    simp
  intro as bs x y heq
  cases as with
  | nil =>
    cases bs with
    | nil => exact ⟨rfl, List.append_cancel_left heq⟩
    | cons b bs =>
      rw [hbody] at heq
      exact absurd (List.cons.inj heq).2.symm (hbracket b _ _)
  | cons a as =>
    rw [hbody] at heq
    cases bs with
    | nil => exact absurd (List.cons.inj heq).2 (hbracket a _ _)
    | cons b bs =>
      rw [hbody] at heq
      obtain ⟨rfl, hrest⟩ := h (List.cons.inj heq).2
      obtain ⟨rfl, rfl⟩ :=
        (h.prepend [',', ' ']).flatMap_until (fun _ _ _ heq => by cases heq) hrest
      exact ⟨rfl, rfl⟩

namespace Argument

/-- The text of an argument in quotes ends where it ends. -/
theorem quotedText_selfDelimiting : SelfDelimiting fun s : String => Quoted.text s.toList :=
  Quoted.text_selfDelimiting.comp fun _ _ => String.toList_inj.mp

/-- So does a list of them, also if a text looks like the end of a list. -/
theorem quotedTexts_selfDelimiting :
    SelfDelimiting fun ss : List String => bracketed (ss.map fun s => Quoted.text s.toList) :=
  quotedText_selfDelimiting.bracketed fun s =>
    Quoted.text_ne (by decide) (by decide) s.toList

/-- Arguments are quoted alike exactly if their texts are the same. -/
theorem quoted_inj {a b : Argument} : a.quoted = b.quoted ↔ a.text = b.text :=
  quotedText_selfDelimiting.injective.eq_iff

/-- Lists of arguments are quoted alike exactly if the lists of their texts are the same. -/
theorem bracketed_quoted_inj {as bs : List Argument} :
    bracketed (as.map quoted) = bracketed (bs.map quoted) ↔ as.map text = bs.map text := by
  have htexts : ∀ cs : List Argument, cs.map quoted =
      (cs.map text).map fun s => Quoted.text s.toList := fun cs => by
    rw [List.map_map]
    rfl
  rw [htexts, htexts]
  exact quotedTexts_selfDelimiting.injective.eq_iff

end Argument
end CommandWire
