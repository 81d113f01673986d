import Mathlib.Data.List.Basic
import CommandWire.Proofs.Range.Draft
import CommandWire.Proofs.Range.Shown
import CommandWire.Value.Hash

/-! Sets of arguments and ranges.

    A set is kept as a table of hashes. A hash that is not in the table decides that a value is new;
    for one that is, equality has the last word:

        value ──▶ hash ──▶ not in the table ──────────────────▶ new
                       └─▶ in the table ──▶ equal to none ───▶ new
                                        └─▶ equal to one ────▶ not new

    So an equal value in the set could be missed, unless equal values have equal hashes. They have,
    for both look at the form in which a value goes on the wire, and at nothing else: at the bytes
    of an argument, whether it is a blob, a command or a keyword, and at what a range adds to a
    request. Hence a set keeps the first value of each form. -/

namespace CommandWire

/-! ### The fields of a range -/

namespace Range.Draft

/-- The fields of a draft, in the order in which they are compared and hashed. -/
def fields (d : Draft) : List Value :=
  [d.word.elim .none .argument, .argument d.min, .argument d.max, .bool d.reversed, .bool d.limited,
    d.offset, d.count]

theorem word_eqv (v w : Option Argument) :
    (v.elim Value.none Value.argument).eqv (w.elim .none .argument) = sameWord v w := by
  cases v <;> cases w <;> rfl

theorem bool_eqv (b c : Bool) : (Value.bool b).eqv (.bool c) = (b == c) := by
  cases b <;> cases c <;> rfl

/-- Drafts are equal exactly if their fields are equal as tuples. -/
theorem fields_eqv (d e : Draft) : (Value.tuple d.fields).eqv (.tuple e.fields) = d.eqv e := by
  have htuple : ∀ xs ys : List Value,
      (Value.tuple xs).eqv (.tuple ys) = (xs.length == ys.length && Value.eqvEach xs ys) :=
    fun _ _ => rfl
  have hcons : ∀ (x y : Value) (xs ys : List Value),
      Value.eqvEach (x :: xs) (y :: ys) = (x.eqv y && Value.eqvEach xs ys) := fun _ _ _ _ => rfl
  have hnil : Value.eqvEach [] [] = true := rfl
  have hargument : ∀ a b : Argument, (Value.argument a).eqv (.argument b) = a.eqv b :=
    fun _ _ => rfl
  simp only [htuple, fields, hcons, hnil, word_eqv, hargument, bool_eqv, eqv, List.length_cons,
    beq_self_eq_true, Bool.true_and, Bool.and_true, Bool.and_assoc]

/-- The fields of the draft of a range have a hash. -/
theorem exists_hash_fields (p : Range) : ∃ h, (Value.tuple p.draft.fields).hash = .ok h := by
  obtain ⟨mode, min, max, reversed, window⟩ := p
  cases mode <;> exact ⟨_, rfl⟩

end Range.Draft

/-! ### Equality and hashes -/

/-- The form in which a value goes on the wire: the bytes of an argument, or those of all arguments
    that a range adds. -/
inductive WireForm where
  | argument (raw : Bytes)
  | range (raws : List Bytes)

namespace Value

/-- The form in which a value goes on the wire, if it does. -/
def wireForm? : Value → Option WireForm
  | .argument a => some (.argument a.raw)
  | .range p => some (.range p.raws)
  | _ => Option.none

/-- A value that goes on the wire: an argument, or a range that can be reached. -/
inductive OnWire : Value → Prop where
  | argument (a : Argument) : OnWire (.argument a)
  | range {p : Range} (reachable : p.Reachable) : OnWire (.range p)

variable {u v w : Value}

/-- Equality looks at the form and at nothing else. -/
theorem eqv_iff_wireForm? (hu : u.OnWire) (hv : v.OnWire) :
    u.eqv v = true ↔ u.wireForm? = v.wireForm? := by
  cases hu with
  | argument a =>
    cases hv with
    | argument b => simp [wireForm?]
    | range reachable => exact iff_of_false Bool.false_ne_true (by simp [wireForm?])
  | range reachable =>
    cases hv with
    | argument b => exact iff_of_false Bool.false_ne_true (by simp [wireForm?])
    | range reachable' => simp [wireForm?, Range.raws_inj]

theorem OnWire.eqv_refl (hv : v.OnWire) : v.eqv v = true := (eqv_iff_wireForm? hv hv).mpr rfl

theorem OnWire.eqv_symm (hu : u.OnWire) (hv : v.OnWire) (h : u.eqv v = true) : v.eqv u = true :=
  (eqv_iff_wireForm? hv hu).mpr ((eqv_iff_wireForm? hu hv).mp h).symm

theorem OnWire.eqv_trans (hu : u.OnWire) (hv : v.OnWire) (hw : w.OnWire) (h : u.eqv v = true)
    (h' : v.eqv w = true) : u.eqv w = true :=
  (eqv_iff_wireForm? hu hw).mpr
    (((eqv_iff_wireForm? hu hv).mp h).trans ((eqv_iff_wireForm? hv hw).mp h'))

theorem OnWire.exists_hash (hv : v.OnWire) : ∃ h, v.hash = .ok h := by
  cases hv with
  | argument a => exact ⟨_, rfl⟩
  | range reachable => exact ⟨_, rfl⟩

/-- The hash looks at nothing but the form either. -/
theorem OnWire.hash_eq (hu : u.OnWire) (hv : v.OnWire) (h : u.eqv v = true) : u.hash = v.hash := by
  have hform := (eqv_iff_wireForm? hu hv).mp h
  cases hu with
  | argument a =>
    cases hv with
    | argument b =>
      have hraw : a.raw = b.raw := by simpa [wireForm?] using hform
      simp only [hash, hraw]
    | range reachable => simp [wireForm?] at hform
  | @range p reachable =>
    cases hv with
    | argument b => simp [wireForm?] at hform
    | @range q reachable' =>
      have hsame : p = q := Range.raws_inj.mp (by simpa [wireForm?] using hform)
      rw [hsame]

theorem sameHash_of_hash {h : UInt64} (hu : u.hash = .ok h) (hv : v.hash = .ok h) :
    sameHash u v = .ok true := by
  simp [sameHash, hu, hv, bind, Except.bind, pure, Except.pure]

theorem OnWire.sameHash (hu : u.OnWire) (hv : v.OnWire) (h : u.eqv v = true) :
    Value.sameHash u v = .ok true := by
  obtain ⟨k, hk⟩ := hu.exists_hash
  exact sameHash_of_hash hk ((hu.hash_eq hv h).symm.trans hk)

/-! ### Tables -/

/-- A table whose entries go on the wire, each behind its own hash. -/
def Tabled (table : List (UInt64 × Value)) : Prop :=
  ∀ e ∈ table, e.2.OnWire ∧ e.2.hash = .ok e.1

theorem Tabled.cons {table : List (UInt64 × Value)} {h : UInt64} (ht : Tabled table) (hv : v.OnWire)
    (hh : v.hash = .ok h) : Tabled ((h, v) :: table) :=
  List.forall_mem_cons.mpr ⟨⟨hv, hh⟩, ht⟩

/-- A hash keeps no equal value from being found. -/
theorem inTable_iff {table : List (UInt64 × Value)} {h : UInt64} (ht : Tabled table)
    (hv : v.OnWire) (hh : v.hash = .ok h) :
    inTable table h v = true ↔ ∃ e ∈ table, e.2.eqv v = true := by
  simp only [inTable, List.any_eq_true, Bool.and_eq_true, beq_iff_eq]
  refine ⟨fun ⟨e, he, _, heq⟩ => ⟨e, he, heq⟩, fun ⟨e, he, heq⟩ => ⟨e, he, ?_, heq⟩⟩
  obtain ⟨hwire, hhash⟩ := ht e he
  exact Except.ok.inj (hhash.symm.trans ((hwire.hash_eq hv heq).trans hh))

/-- The value at a place equals none in the table and none in front of it. -/
def NewAt (table : List (UInt64 × Value)) (vs : List Value) (i : Nat) : Prop :=
  ∃ v, vs[i]? = some v ∧ (∀ e ∈ table, e.2.eqv v = false) ∧ ∀ u ∈ vs.take i, u.eqv v = false

section NewAt

variable {table : List (UInt64 × Value)} {h : UInt64} {vs : List Value}

theorem newAt_zero : NewAt table (v :: vs) 0 ↔ ∀ e ∈ table, e.2.eqv v = false := by
  simp [NewAt]

/-- What stands in front of a list may as well be in the table. -/
theorem newAt_succ (h : UInt64) {i : Nat} :
    NewAt table (v :: vs) (i + 1) ↔ NewAt ((h, v) :: table) vs i := by
  refine exists_congr fun w => and_congr_right fun _ => ?_
  rw [List.take_succ_cons, List.forall_mem_cons, List.forall_mem_cons]
  exact ⟨fun ⟨htable, hv, hvs⟩ => ⟨⟨hv, htable⟩, hvs⟩, fun ⟨⟨hv, htable⟩, hvs⟩ => ⟨htable, hv, hvs⟩⟩

/-- A value makes no difference to a table that has an equal one. -/
theorem newAt_cons_of_mem {i : Nat} (ht : Tabled table) (hv : v.OnWire)
    (hvs : ∀ w ∈ vs, w.OnWire) (hmem : ∃ e ∈ table, e.2.eqv v = true) :
    NewAt ((h, v) :: table) vs i ↔ NewAt table vs i := by
  obtain ⟨e, he, heqv⟩ := hmem
  refine exists_congr fun w => and_congr_right fun hw => and_congr_left fun _ => ?_
  rw [List.forall_mem_cons]
  refine ⟨And.right, fun htable => ⟨Bool.eq_false_iff.mpr fun hvw => ?_, htable⟩⟩
  have hew := (ht e he).1.eqv_trans hv (hvs w (List.mem_of_getElem? hw)) heqv hvw
  rw [htable e he] at hew
  cases hew

/-- What is said about a list, from what is said about its first value and about the others. -/
theorem news_cons {new : Bool} {news : List Bool}
    (hfirst : new = true ↔ ∀ e ∈ table, e.2.eqv v = false)
    (hrest : ∀ i, news[i]? = some true ↔ NewAt ((h, v) :: table) vs i) (i : Nat) :
    (new :: news)[i]? = some true ↔ NewAt table (v :: vs) i := by
  cases i with
  | zero => rw [List.getElem?_cons_zero, Option.some.injEq, hfirst, newAt_zero]
  | succ i => rw [List.getElem?_cons_succ, hrest, newAt_succ h]

/-- A value is new exactly if it equals none in the table and none in front of it. -/
theorem exists_novelties (ht : Tabled table) (hvs : ∀ v ∈ vs, v.OnWire) :
    ∃ news, novelties table vs = .ok news ∧ ∀ i, news[i]? = some true ↔ NewAt table vs i := by
  induction vs generalizing table with
  | nil => exact ⟨[], rfl, by simp [NewAt]⟩
  | cons v vs ih =>
    obtain ⟨hv, hvs⟩ := List.forall_mem_cons.mp hvs
    obtain ⟨h, hh⟩ := hv.exists_hash
    have hfound := inTable_iff ht hv hh
    cases hin : inTable table h v with
    | true =>
      -- the table stays as it is, which comes to the same as if the value were put into it
      have hmem := hfound.mp hin
      obtain ⟨news, hnews, hplaces⟩ := ih ht hvs
      have hsame : ∀ i, news[i]? = some true ↔ NewAt ((h, v) :: table) vs i := by
        intro i
        rw [hplaces i, newAt_cons_of_mem ht hv hvs hmem]
      refine ⟨false :: news, ?_, news_cons (by simpa using hmem) hsame⟩
      simp [novelties, hh, hin, hnews, bind, Except.bind, pure, Except.pure]
    | false =>
      have hnone : ∀ e ∈ table, e.2.eqv v = false := by simpa [hin] using hfound
      obtain ⟨news, hnews, hplaces⟩ := ih (ht.cons hv hh) hvs
      refine ⟨true :: news, ?_, news_cons (iff_of_true rfl hnone) hplaces⟩
      simp [novelties, hh, hin, hnews, bind, Except.bind, pure, Except.pure]

end NewAt

/-! ### Sets -/

/-- The places, in order, of the values that equal none in front of them. -/
structure FirstPlaces (vs : List Value) (places : List Nat) : Prop where
  sorted : places.Pairwise (· < ·)
  mem_iff : ∀ i, i ∈ places ↔ ∃ v, vs[i]? = some v ∧ ∀ u ∈ vs.take i, u.eqv v = false

/-- A set keeps the first of equal values. -/
theorem exists_distinct {vs : List Value} (hvs : ∀ v ∈ vs, v.OnWire) :
    ∃ places, distinct vs = .ok places ∧ FirstPlaces vs places := by
  have hempty : Tabled [] := List.forall_mem_nil _
  obtain ⟨news, hnews, hplaces⟩ := exists_novelties hempty hvs
  refine ⟨(news.zipIdx.filter (·.1)).map (·.2), ?_, ?_, fun i => ?_⟩
  · simp [distinct, hnews, bind, Except.bind, pure, Except.pure]
  · have hsub : ((news.zipIdx.filter (·.1)).map (·.2)).Sublist (news.zipIdx.map (·.2)) :=
      List.filter_sublist.map _
    refine List.Pairwise.sublist hsub ?_
    rw [List.zipIdx_map_snd]
    exact List.pairwise_lt_range'
  · have hmem : i ∈ (news.zipIdx.filter (·.1)).map (·.2) ↔ news[i]? = some true := by
      simp [List.mk_mem_zipIdx_iff_getElem?]
    rw [hmem, hplaces i]
    simp [NewAt]

/-- Arguments and ranges that can be reached, all together: equality is an equivalence that never
    holds between an argument and a range. Two arguments are equal exactly if their bytes are, and
    two ranges exactly if they append the same to a request; that is also when the fields kept for
    them are equal one by one. Equal values have one hash, and equal fields too. So of any values
    that are put into a set in order, it keeps just those that equal none in front of them. -/
theorem distinct_keeps_first :
    (Equivalence fun u v : {v : Value // v.OnWire} => u.1.eqv v.1 = true) ∧
    (∀ (a : Argument) (p : Range),
      (Value.argument a).eqv (.range p) = false ∧ (Value.range p).eqv (.argument a) = false) ∧
    (∀ a b : Argument, (Value.argument a).eqv (.argument b) = true ↔ a.raw = b.raw) ∧
    (∀ p q : Range, p.Reachable → q.Reachable →
      (∀ r : Request, (Value.range p).eqv (.range q) = true ↔
        (r.addBuilt (.range p)).1.raws = (r.addBuilt (.range q)).1.raws) ∧
      (Value.tuple p.draft.fields).eqv (.tuple q.draft.fields) = (Value.range p).eqv (.range q) ∧
      ((Value.range p).eqv (.range q) = true →
        sameHash (.tuple p.draft.fields) (.tuple q.draft.fields) = .ok true)) ∧
    (∀ u v : Value, u.OnWire → v.OnWire → u.eqv v = true → sameHash u v = .ok true) ∧
    ∀ vs : List Value, (∀ v ∈ vs, v.OnWire) →
      ∃ places, distinct vs = .ok places ∧ FirstPlaces vs places := by
  refine ⟨⟨?_, ?_, ?_⟩, fun a p => ⟨rfl, rfl⟩, ?_, ?_, ?_, fun vs hvs => exists_distinct hvs⟩
  · exact fun v => v.2.eqv_refl
  · exact fun {u v} h => u.2.eqv_symm v.2 h
  · exact fun {u v w} h h' => u.2.eqv_trans v.2 w.2 h h'
  · intro a b
    rw [argument_eqv, beq_iff_eq]
  · intro p q _ _
    refine ⟨fun r => ?_, ?_, fun heqv => ?_⟩
    · rw [(Range.addBuilt_range r p).2, (Range.addBuilt_range r q).2, List.append_cancel_left_eq,
        Range.raws_inj, range_eqv, beq_iff_eq]
    · rw [Range.Draft.fields_eqv, Range.draft_eqv]
    · obtain ⟨h, hh⟩ := Range.Draft.exists_hash_fields p
      obtain rfl : p = q := by simpa using heqv
      exact sameHash_of_hash hh hh
  · exact fun u v hu hv heqv => hu.sameHash hv heqv

/-- A command and the same bytes as a blob, and two ranges of which one had another window before:
    the second of each is not kept, though it is of another kind or has another past. -/
theorem distinct_keeps_first_get :
    let made : Range := ⟨.lex, ascii "-", ascii "+", false, .none⟩
    let p := made.editAll
      [.limit (.int 1) (.int 2), .limit (.int 0) (.int 5), .limit .none (.int 7)]
    let q := made.editAll [.limit (.int 0) (.int 5)]
    let vs : List Value :=
      [.argument (.command .get), .argument (.blob (ascii "GET")), .range p, .range q]
    (∀ v ∈ vs, v.OnWire) ∧ ∃ places, distinct vs = .ok places ∧
      0 ∈ places ∧ 1 ∉ places ∧ 2 ∈ places ∧ 3 ∉ places := by
  intro made p q vs
  have hmake : Range.Maker.lex.make (.text "-") (.text "+") = .ok made := by rfl
  have hvs : ∀ v ∈ vs, v.OnWire := by
    intro v hv
    simp only [vs, List.mem_cons, List.not_mem_nil, or_false] at hv
    rcases hv with rfl | rfl | rfl | rfl
    · exact .argument _
    · exact .argument _
    · exact .range (.made hmake _)
    · exact .range (.made hmake _)
  obtain ⟨places, hplaces, hfirst⟩ := distinct_keeps_first.2.2.2.2.2 vs hvs
  refine ⟨hvs, places, hplaces, ?_, ?_, ?_, ?_⟩
  · exact (hfirst.mem_iff 0).mpr ⟨_, rfl, by decide +kernel⟩
  · rw [hfirst.mem_iff 1]
    rintro ⟨v, hv, hnew⟩
    obtain rfl := Option.some.inj hv
    exact absurd (hnew (.argument (.command .get)) (by simp [vs])) (by decide +kernel)
  · exact (hfirst.mem_iff 2).mpr ⟨_, rfl, by decide +kernel⟩
  · rw [hfirst.mem_iff 3]
    rintro ⟨v, hv, hnew⟩
    obtain rfl := Option.some.inj hv
    exact absurd (hnew (.range p) (by simp [vs])) (by decide +kernel)

end Value
end CommandWire
