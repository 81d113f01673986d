import CommandWire.Proofs.Text.WellFormed

/-! What becomes of damaged bytes.

    Where no character begins, the longest part that could have begun one is replaced, or else a
    single byte, and reading goes on right behind it. -/

namespace CommandWire.Utf8

/-- Some bytes are a first part of a character. -/
def Begins (part : Bytes) : Prop := ∃ more, Sequence (part ++ more)

theorem Sequence.begins {one : Bytes} (h : Sequence one) : Begins one :=
  ⟨[], by rwa [List.append_nil]⟩

/-! ### What a state owes -/

/-- The ranges of the bytes that a state still waits for. -/
def Pending.owes : Pending → List Span
  | .start => []
  | .within low high owed _ => (low.toNat, high.toNat) :: List.replicate owed tail

/-- What a byte between characters can come to: it is a character, it is the first byte of one, or
    it is none. -/
inductive Lead (b : UInt8) : List Char × Pending → Prop where
  | char {c : Char} (whole : Sequence [b]) : Lead b ([c], .start)
  | first {p : Pending} (begins : Begins [b]) (owing : p.owes ≠ [])
      (completes : ∀ more, Sequence (b :: more) ↔ Fit p.owes more) : Lead b ([], p)
  | damaged (never : ∀ more, ¬ Sequence (b :: more)) : Lead b ([replacement], .start)

/-- The first byte of a form that has others. -/
theorem Lead.of_form {low high : Nat} {others : List Span} {b : UInt8} {p : Pending}
    (known : ⟨(low, high), others⟩ ∈ forms) (hlow : low ≤ b.toNat) (hhigh : b.toNat ≤ high)
    (owes : p.owes = others) (hmore : others ≠ []) : Lead b ([], p) := by
  have completes := Form.sequence_iff known ⟨hlow, hhigh⟩
  obtain ⟨more, hfit⟩ := exists_fit known
  refine .first ⟨more, (completes more).mpr hfit⟩ (by rwa [owes]) ?_
  rwa [owes]

theorem lead_lead (b : UInt8) : Lead b (lead b) := by
  have two : (⟨(0xC2, 0xDF), [tail]⟩ : Form) ∈ forms := by decide
  have three : (⟨(0xE0, 0xE0), [(0xA0, 0xBF), tail]⟩ : Form) ∈ forms ∧
      (⟨(0xE1, 0xEC), [tail, tail]⟩ : Form) ∈ forms ∧
      (⟨(0xED, 0xED), [(0x80, 0x9F), tail]⟩ : Form) ∈ forms ∧
      (⟨(0xEE, 0xEF), [tail, tail]⟩ : Form) ∈ forms := by decide
  have four : (⟨(0xF0, 0xF0), [(0x90, 0xBF), tail, tail]⟩ : Form) ∈ forms ∧
      (⟨(0xF1, 0xF3), [tail, tail, tail]⟩ : Form) ∈ forms ∧
      (⟨(0xF4, 0xF4), [(0x80, 0x8F), tail, tail]⟩ : Form) ∈ forms := by decide
  unfold lead
  simp only [UInt8.le_iff_toNat_le, ← UInt8.toNat_inj, UInt8.reduceToNat]
  split_ifs
  · exact .char (sequence_one_iff.mpr (by omega))
  · exact .of_form two (by omega) (by omega) rfl (by decide)
  · exact .of_form three.1 (by omega) (by omega) rfl (by decide)
  · exact .of_form three.2.2.1 (by omega) (by omega) rfl (by decide)
  · -- the same state serves the forms below and above the surrogates
    rcases Nat.lt_or_ge b.toNat 0xED with hlt | hge
    · exact .of_form three.2.1 (by omega) (by omega) rfl (by decide)
    · exact .of_form three.2.2.2 (by omega) (by omega) rfl (by decide)
  · exact .of_form four.1 (by omega) (by omega) rfl (by decide)
  · exact .of_form four.2.1 (by omega) (by omega) rfl (by decide)
  · exact .of_form four.2.2 (by omega) (by omega) rfl (by decide)
  · refine .damaged fun more => ?_
    simp [sequence_cons_iff, forms, Span.Has]
    omega

/-- A byte inside a character: one that the state waits for is the next of the character, and any
    other is read afresh behind a replacement. -/
theorem step_of_owes {p : Pending} {s : Span} {spans : List Span} (owes : p.owes = s :: spans)
    (b : UInt8) :
    (s.Has b ∧ (step p b).2.owes = spans ∧ (spans ≠ [] → (step p b).1 = [])) ∨
      ¬ s.Has b ∧ step p b = (replacement :: (lead b).1, (lead b).2) := by
  cases p with
  | start => cases owes
  | within low high owed code =>
    obtain ⟨rfl, rfl⟩ := List.cons.inj owes
    by_cases hb : low ≤ b ∧ b ≤ high
    · refine .inl ⟨hb, ?_⟩
      simp only [step.eq_def, if_pos hb]
      cases owed with
      | zero => simp [Pending.owes]
      | succ more => simp [Pending.owes, List.replicate_succ, tail]
    · refine .inr ⟨hb, ?_⟩
      simp only [step.eq_def, if_neg hb]

/-! ### Reading around damage -/

/-- A part, in front of the rest of some bytes, that is replaced: no character begins there, and no
    longer part could have begun one; if not even a byte could, the part is that byte. -/
structure MaximalSubpart (part rest : Bytes) : Prop where
  some : part ≠ []
  begins : Begins part ∨ part.length = 1
  never : ∀ one, Sequence one → ¬ one <+: part ++ rest
  longest : ∀ more, more <+: rest → Begins (part ++ more) → more = []

/-- Bytes are read: characters as they are, and each maximal subpart of what is damaged as one
    replacement. -/
inductive Reading : Bytes → List Char → Prop where
  | nil : Reading [] []
  | char {rest : Bytes} {cs : List Char} (c : Char) (others : Reading rest cs) :
      Reading (String.utf8EncodeChar c ++ rest) (c :: cs)
  | damage {part rest : Bytes} {cs : List Char} (replaced : MaximalSubpart part rest)
      (others : Reading rest cs) : Reading (part ++ rest) (replacement :: cs)

/-- A state inside a character, behind the bytes that it has of it. -/
structure Holds (seen : Bytes) (p : Pending) : Prop where
  begun : seen ≠ []
  begins : Begins seen
  owing : p.owes ≠ []
  completes : ∀ more, Sequence (seen ++ more) ↔ Fit p.owes more
  reads : ∀ rest, decodeFrom .start (seen ++ rest) = decodeFrom p rest

section Holds

variable {seen rest : Bytes} {p : Pending} {s : Span} {spans : List Span} {b : UInt8}

/-- The next byte of a character that is not the last one. -/
theorem Holds.push (h : Holds seen p) (owes : p.owes = s :: spans) (hmore : spans ≠ [])
    (hb : s.Has b) : Holds (seen ++ [b]) (step p b).2 := by
  obtain ⟨-, hstep, hquiet⟩ | ⟨hnot, -⟩ := step_of_owes owes b
  · have hcompletes : ∀ more, Sequence (seen ++ [b] ++ more) ↔ Fit spans more := by
      intro more
      rw [List.append_assoc, List.singleton_append, h.completes, owes, fit_cons]
      exact and_iff_right hb
    refine ⟨by simp, ?_, by rwa [hstep], by rwa [hstep], ?_⟩
    · obtain ⟨more, hmore⟩ := h.begins
      rw [h.completes, owes] at hmore
      cases hmore with
      | cons first others => exact ⟨_, (hcompletes _).mpr others⟩
    · intro rest
      rw [List.append_assoc, h.reads, List.singleton_append, decodeFrom_cons, hquiet hmore]
      rfl
  · exact absurd hb hnot

/-- The last byte of a character. -/
theorem Holds.complete (h : Holds seen p) (owes : p.owes = [s]) (hb : s.Has b) :
    Sequence (seen ++ [b]) := by
  rw [h.completes, owes]
  exact .cons hb .nil

/-- What a state has is not a whole character. -/
theorem Holds.not_sequence (h : Holds seen p) : ¬ Sequence seen := by
  intro hseen
  have hfit := (h.completes []).mp (by rwa [List.append_nil])
  exact h.owing (List.forall₂_nil_right_iff.mp hfit)

/-- Where the next byte, if there is one, is not the one that is waited for, no character goes on
    into what follows. -/
theorem Holds.eq_nil_of_prefix (h : Holds seen p) (owes : p.owes = s :: spans)
    (hbreak : ∀ b, rest.head? = some b → ¬ s.Has b) {more : Bytes} (hfront : more <+: rest)
    (hbegins : Begins (seen ++ more)) : more = [] := by
  obtain ⟨after, hafter⟩ := hbegins
  rw [List.append_assoc, h.completes, owes] at hafter
  cases more with
  | nil => rfl
  | cons b more =>
    obtain ⟨others, rfl⟩ := hfront
    exact absurd (fit_cons.mp hafter).1 (hbreak b rfl)

/-- There, what the state has is a maximal subpart. -/
theorem Holds.maximalSubpart (h : Holds seen p) (owes : p.owes = s :: spans)
    (hbreak : ∀ b, rest.head? = some b → ¬ s.Has b) : MaximalSubpart seen rest := by
  refine ⟨h.begun, .inl h.begins, ?_, fun more => h.eq_nil_of_prefix owes hbreak⟩
  intro one hone hfront
  rcases List.prefix_or_prefix_of_prefix hfront (List.prefix_append seen rest) with
    ⟨more, rfl⟩ | ⟨more, rfl⟩
  · -- a character in front of what has begun one is all of it
    obtain ⟨after, hafter⟩ := h.begins
    rw [List.append_assoc] at hafter
    obtain ⟨rfl, -⟩ := List.append_eq_nil_iff.mp (hone.append_eq_nil hafter)
    exact h.not_sequence (by rwa [List.append_nil])
  · have hmore := (List.prefix_append_right_inj seen).mp hfront
    obtain rfl := h.eq_nil_of_prefix owes hbreak hmore hone.begins
    exact h.not_sequence (by rwa [List.append_nil] at hone)

end Holds

/-- A byte that begins no character is replaced alone. -/
theorem maximalSubpart_singleton {b : UInt8} (never : ∀ more, ¬ Sequence (b :: more))
    (rest : Bytes) : MaximalSubpart [b] rest := by
  refine ⟨List.cons_ne_nil _ _, .inr rfl, ?_, ?_⟩
  · rintro one hone ⟨after, hafter⟩
    cases hone with
    | of known first others =>
      obtain ⟨rfl, -⟩ := List.cons.inj hafter
      exact never _ (.of known first others)
  · rintro more - ⟨after, hafter⟩
    exact absurd hafter (never _)

/-- A character is read as itself. -/
theorem reading_char {one rest : Bytes} (h : Sequence one)
    (hrest : Reading rest (decodeFrom .start rest)) :
    Reading (one ++ rest) (decodeFrom .start (one ++ rest)) := by
  obtain ⟨c, rfl⟩ := h.exists_char
  rw [decodeFrom_char]
  exact .char c hrest

/-- Whatever a state has of a character, some bytes behind it are read as `Reading` says. -/
def ReadBehind (data : Bytes) : Prop :=
  ∀ seen p, Holds seen p → Reading (seen ++ data) (decodeFrom p data)

/-- Where the bytes end inside a character, what there is of it is replaced. -/
theorem readBehind_nil : ReadBehind [] := by
  intro seen p h
  obtain ⟨s, spans, owes⟩ := List.exists_cons_of_ne_nil h.owing
  cases p with
  | start => cases owes
  | within low high owed code => exact .damage (h.maximalSubpart owes (by simp)) .nil

section Cons

variable {b : UInt8} {data : Bytes}

/-- A byte between characters. -/
theorem reading_cons (hstart : Reading data (decodeFrom .start data)) (hheld : ReadBehind data) :
    Reading (b :: data) (decodeFrom .start (b :: data)) := by
  have hlead := lead_lead b
  rw [decodeFrom_cons, step]
  generalize hresult : lead b = result at hlead
  cases hlead with
  | char whole =>
    have hchar := reading_char whole hstart
    rwa [List.singleton_append, decodeFrom_cons, step, hresult] at hchar
  | first begins owing completes =>
    refine hheld [b] _ ⟨List.cons_ne_nil _ _, begins, owing, completes, fun rest => ?_⟩
    rw [List.singleton_append, decodeFrom_cons, step, hresult]
    rfl
  | damaged never => exact .damage (maximalSubpart_singleton never data) hstart

/-- A byte inside a character: the last one, another one of it, or one that breaks it. -/
theorem readBehind_cons (hstart : Reading data (decodeFrom .start data))
    (hheld : ReadBehind data) : ReadBehind (b :: data) := by
  intro seen p h
  obtain ⟨s, spans, owes⟩ := List.exists_cons_of_ne_nil h.owing
  rcases step_of_owes owes b with ⟨hb, -, -⟩ | ⟨hb, hstep⟩
  · rcases eq_or_ne spans [] with rfl | hmore
    · rw [← h.reads, ← List.singleton_append, ← List.append_assoc]
      exact reading_char (h.complete owes hb) hstart
    · have hpush := h.push owes hmore hb
      have hread := hheld _ _ hpush
      rw [← hpush.reads, List.append_assoc, h.reads] at hread
      exact hread
  · have hread : decodeFrom p (b :: data) = replacement :: decodeFrom .start (b :: data) := by
      rw [decodeFrom_cons, hstep]
      rfl
    rw [hread]
    refine .damage (h.maximalSubpart owes ?_) (reading_cons hstart hheld)
    rintro c hc
    cases hc
    exact hb

end Cons

theorem reading_and_readBehind (data : Bytes) :
    Reading data (decodeFrom .start data) ∧ ReadBehind data := by
  induction data with
  | nil => exact ⟨.nil, readBehind_nil⟩
  | cons b data ih =>
    obtain ⟨hstart, hheld⟩ := ih
    exact ⟨reading_cons hstart hheld, readBehind_cons hstart hheld⟩

theorem reading_decodeFrom (data : Bytes) : Reading data (decodeFrom .start data) :=
  (reading_and_readBehind data).1

/-- Of two maximal subparts of the same bytes neither is longer. -/
theorem MaximalSubpart.eq_of_append_eq {part rest part' rest' : Bytes}
    (h : MaximalSubpart part rest) (h' : MaximalSubpart part' rest')
    (heq : part ++ rest = part' ++ rest') : part = part' ∧ rest = rest' := by
  -- a longer one could have begun a character, since it has more bytes than one
  have longer : ∀ {part rest rest' more : Bytes}, MaximalSubpart part rest →
      MaximalSubpart (part ++ more) rest' → part ++ rest = part ++ more ++ rest' → more = [] := by
    intro part rest rest' more h h' heq
    rw [List.append_assoc, List.append_cancel_left_eq] at heq
    rcases h'.begins with hbegins | hlength
    · exact h.longest more ⟨rest', heq.symm⟩ hbegins
    · have hpos := List.length_pos_iff.mpr h.some
      rw [List.length_append] at hlength
      exact List.eq_nil_of_length_eq_zero (by omega)
  have hpart : part = part' := by
    rcases List.prefix_or_prefix_of_prefix (List.prefix_append part rest)
      (heq ▸ List.prefix_append part' rest') with ⟨more, rfl⟩ | ⟨more, rfl⟩
    · rw [longer h h' heq, List.append_nil]
    · rw [longer h' h heq.symm, List.append_nil]
  subst hpart
  exact ⟨rfl, List.append_cancel_left heq⟩

/-- There is only one way of reading bytes. -/
theorem Reading.unique {data : Bytes} {cs ds : List Char} (h : Reading data cs)
    (h' : Reading data ds) : cs = ds := by
  induction h generalizing ds with
  | nil =>
    generalize hdata : ([] : Bytes) = data at h'
    cases h' with
    | nil => rfl
    | char c others =>
      exact absurd (List.append_eq_nil_iff.mp hdata.symm).1 (sequence_char c).ne_nil
    | damage replaced others =>
      exact absurd (List.append_eq_nil_iff.mp hdata.symm).1 replaced.some
  | @char rest cs c others ih =>
    generalize hdata : String.utf8EncodeChar c ++ rest = data at h'
    cases h' with
    | nil => exact absurd (List.append_eq_nil_iff.mp hdata).1 (sequence_char c).ne_nil
    | @char rest' ds d others' =>
      -- both characters begin in the same place
      have hread := congrArg (decodeFrom .start) hdata
      rw [decodeFrom_char, decodeFrom_char] at hread
      obtain ⟨rfl, -⟩ := List.cons.inj hread
      obtain rfl := List.append_cancel_left hdata
      rw [ih others']
    | damage replaced others' =>
      exact absurd ⟨rest, hdata⟩ (replaced.never _ (sequence_char c))
  | @damage part rest cs replaced others ih =>
    generalize hdata : part ++ rest = data at h'
    cases h' with
    | nil => exact absurd (List.append_eq_nil_iff.mp hdata).1 replaced.some
    | @char rest' ds d others' =>
      exact absurd ⟨rest', hdata.symm⟩ (replaced.never _ (sequence_char d))
    | damage replaced' others' =>
      obtain ⟨rfl, rfl⟩ := replaced.eq_of_append_eq replaced' hdata
      rw [ih others']

/-- The decoder reads in the only way there is. -/
theorem reading_iff {data : Bytes} {cs : List Char} :
    Reading data cs ↔ cs = decodeFrom .start data := by
  constructor
  · intro h
    exact h.unique (reading_decodeFrom data)
  · rintro rfl
    exact reading_decodeFrom data

/-- Where nothing was replaced, the bytes are those of the text that was read. -/
theorem Reading.eq_flatMap {data : Bytes} {cs : List Char} (h : Reading data cs)
    (clean : replacement ∉ cs) : data = cs.flatMap String.utf8EncodeChar := by
  induction h with
  | nil => rfl
  | char c others ih =>
    rw [List.flatMap_cons, ← ih fun hmem => clean (List.mem_cons_of_mem c hmem)]
  | damage replaced others ih => exact absurd List.mem_cons_self clean

/-- A text without replacements is read from its own bytes only. -/
theorem decode_eq_iff {data : Bytes} {s : String} (clean : replacement ∉ s.toList) :
    decode data = s ↔ data = encode s := by
  constructor
  · rintro rfl
    rw [decode, String.toList_ofList] at clean
    rw [encode, decode, String.toList_ofList]
    exact (reading_decodeFrom data).eq_flatMap clean
  · rintro rfl
    exact decode_encode s

/-! ### Reading on behind damage -/

/-- The state waits only for bytes that begin no character. -/
def Pending.Inside (p : Pending) : Prop := ∀ s ∈ p.owes, tail.1 ≤ s.1 ∧ s.2 ≤ tail.2

theorem inside_lead (b : UInt8) : (lead b).2.Inside := by
  unfold lead Pending.Inside
  split_ifs
  all_goals simp [Pending.owes, tail]

theorem Pending.Inside.step {p : Pending} (h : p.Inside) (b : UInt8) : (step p b).2.Inside := by
  rcases howes : p.owes with _ | ⟨s, spans⟩
  · cases p with
    | start => exact inside_lead b
    | within low high owed code => cases howes
  · rcases step_of_owes howes b with ⟨-, hstep, -⟩ | ⟨-, hstep⟩
    · intro t ht
      rw [hstep] at ht
      exact h t (by simp [howes, ht])
    · rw [hstep]
      exact inside_lead b

/-- A byte that is none inside a character ends the damage, if there is any. -/
theorem decodeFrom_cons_of_not_tail {p : Pending} (h : p.Inside) {b : UInt8} (hb : ¬ tail.Has b)
    (rest : Bytes) : decodeFrom p (b :: rest) = p.finish ++ decodeFrom .start (b :: rest) := by
  cases p with
  | start => rfl
  | within low high owed code =>
    obtain ⟨hlow, hhigh⟩ := h (low.toNat, high.toNat) List.mem_cons_self
    have hnot : ¬ Span.Has (low.toNat, high.toNat) b := by
      rintro ⟨hleast, hmost⟩
      exact hb ⟨Nat.le_trans hlow hleast, Nat.le_trans hmost hhigh⟩
    rcases step_of_owes (p := .within low high owed code) rfl b with ⟨hhas, -⟩ | ⟨-, hstep⟩
    · exact absurd hhas hnot
    · rw [decodeFrom_cons, hstep]
      rfl

/-- So what is in front of such a byte is read as if the bytes ended there. -/
theorem decodeFrom_append {p : Pending} (h : p.Inside) (data : Bytes) {b : UInt8}
    (hb : ¬ tail.Has b) (rest : Bytes) :
    decodeFrom p (data ++ b :: rest) = decodeFrom p data ++ decodeFrom .start (b :: rest) := by
  induction data generalizing p with
  | nil => exact decodeFrom_cons_of_not_tail h hb rest
  | cons c data ih =>
    rw [List.cons_append, decodeFrom_cons, ih (h.step c), decodeFrom_cons p c data,
      List.append_assoc]

/-- A text starts afresh behind any bytes. -/
theorem decodeFrom_append_encode (data : Bytes) (t : String) :
    decodeFrom .start (data ++ encode t) = decodeFrom .start data ++ t.toList := by
  have hread := decodeFrom_encode t.toList []
  rw [List.append_nil, decodeFrom_nil, Pending.finish, List.append_nil] at hread
  have hformed : WellFormed (encode t) := wellFormed_iff_isText.mpr ⟨t, rfl⟩
  rw [← hread]
  change _ = _ ++ decodeFrom .start (encode t)
  generalize encode t = text at hformed
  cases hformed with
  | nil => simp [Pending.finish]
  | cons first others =>
    cases first with
    | @of f b more known hb rest =>
      refine decodeFrom_append (fun s hs => ?_) data (Sequence.not_tail (.of known hb rest)) _
      cases hs

/-- Damage spoils nothing around it: texts on both sides of any bytes are read as they are, and the
    bytes between them as if they were alone. Of these each maximal subpart of what is damaged
    becomes one replacement, and there is no other way of reading them so. Nothing is replaced, and
    the bytes are written back as they were, exactly where they are well-formed. -/
theorem decode_around_damage :
    (∀ (s t : String) (data : Bytes),
      decode (encode s ++ data ++ encode t) = s ++ decode data ++ t) ∧
    (∀ s, decode (encode s) = s) ∧
    (∀ data, encode (decode data) = data ↔ WellFormed data) ∧
    ∀ data cs, Reading data cs ↔ cs = (decode data).toList := by
  refine ⟨fun s t data => ?_, decode_encode, fun data => encode_decode_eq_iff, fun data cs => ?_⟩
  · rw [decode, decodeFrom_append_encode, encode, decodeFrom_encode, decode]
    simp only [String.ofList_append, String.ofList_toList]
  · rw [reading_iff, decode, String.toList_ofList]

example : decode [0x61, 0xF0, 0x9F, 0x98, 0x62] = "a\uFFFDb" := by decide +kernel

end CommandWire.Utf8
