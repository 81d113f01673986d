import CommandWire.Proofs.Range.Draft
import CommandWire.Proofs.Request.Growth

/-! Requests that ask each other.

    A request that is asked to add what a value builds hands itself to the value, which is asked in
    turn. A range appends and returns, the general builder leaves open what it adds, and most values
    cannot be asked at all. A request can, for that is what requests are asked; but all it does is
    hand itself to the other one:

        a ── adds what b builds ──▶ b ── adds what a builds ──▶ a ── adds what b builds ──▶ ⋯

    Nothing gets smaller on this way, and nothing is appended. So the calls come to an end exactly
    if the value is no request. Otherwise every call makes one more, until they are nested as deep
    as calls may be. -/

namespace CommandWire

/-- A call: a request, with the number of its creation, is asked to add what a value builds. -/
structure Asking where
  number : Nat
  request : Request
  value : Value

namespace Asking

/-- The call that a call makes, if it makes one: the other request is asked, with the roles
    swapped. -/
def next? (c : Asking) : Option Asking :=
  match c.value with
  | .request number r => some ⟨number, r, .request c.number c.request⟩
  | _ => none

/-- The call that is nested so deep in a call, if there is one. -/
def nested (c : Asking) : Nat → Option Asking
  | 0 => some c
  | depth + 1 => (c.nested depth).bind next?

/-- Whether the calls that a call leads to come to an end. -/
def Ends (c : Asking) : Prop := ∃ depth, c.nested depth = none

/-- What a call comes to, if calls may be nested so deep in it. -/
def outcome (c : Asking) (depth : Nat) : Attempt Request :=
  match c.value.builder? with
  | some b => b.addTo depth c.request
  | none => (c.request, some .noSuchMember)

variable {c d : Asking}

/-! ### One call -/

theorem next?_eq_none_iff : c.next? = none ↔ ∀ number r, c.value ≠ .request number r := by
  obtain ⟨number, r, v⟩ := c
  cases v <;> simp [next?]

/-- The request that is asked next asks back. -/
theorem next?_swap (h : c.next? = some d) : d.next? = some c := by
  obtain ⟨number, r, v⟩ := c
  cases v with
  | request m q =>
    obtain rfl := Option.some.inj h
    rfl
  | _ => cases h

/-- A call that makes another one leaves its request as it is, and fails as that one does. -/
theorem outcome_of_next? (h : c.next? = some d) (depth : Nat) :
    c.outcome (depth + 1) = (c.request, (d.outcome depth).2) := by
  obtain ⟨number, r, v⟩ := c
  cases v with
  | request m q =>
    obtain rfl := Option.some.inj h
    rfl
  | _ => cases h

/-- A call that makes no other does not depend on how deep calls may be nested. -/
theorem outcome_of_last (h : c.next? = none) (depth : Nat) :
    c.outcome depth = c.request.addBuilt c.value := by
  obtain ⟨number, r, v⟩ := c
  cases v with
  | request m q => cases h
  | range p => cases depth <;> rfl
  | emptyBuilder => cases depth <;> rfl
  | _ => rfl

/-- What a call that makes no other comes to: a range appends, one part after another, and all else
    fails at once. -/
theorem addBuilt_of_last (h : c.next? = none) :
    (∃ p, c.value = .range p ∧
      c.request.addBuilt c.value = (c.request.pushAll p.arguments, none) ∧
      c.request.addBuilt c.value = p.draft.addTo c.request) ∨
    c.value = .emptyBuilder ∧ c.request.addBuilt c.value = (c.request, some .undefined) ∨
    c.value.builder? = none ∧ c.request.addBuilt c.value = (c.request, some .noSuchMember) := by
  obtain ⟨number, r, v⟩ := c
  cases v with
  | range p => exact .inl ⟨p, rfl, rfl, (Range.draft_addTo p r).symm⟩
  | emptyBuilder => exact .inr (.inl ⟨rfl, rfl⟩)
  | request m q => cases h
  | _ => exact .inr (.inr ⟨rfl, rfl⟩)

/-! ### All calls -/

/-- Two requests ask each other in turn, again and again. -/
theorem nested_of_next? (h : c.next? = some d) (n : Nat) :
    c.nested (2 * n) = some c ∧ c.nested (2 * n + 1) = some d := by
  induction n with
  | zero => exact ⟨rfl, h⟩
  | succ n ih =>
    have heven : c.nested (2 * (n + 1)) = some c := by
      rw [Nat.mul_succ, nested, ih.2]
      exact next?_swap h
    exact ⟨heven, by rw [nested, heven]; exact h⟩

theorem ends_iff : c.Ends ↔ ∀ number r, c.value ≠ .request number r := by
  rw [← next?_eq_none_iff]
  cases h : c.next? with
  | none => exact iff_of_true ⟨1, h⟩ rfl
  | some d =>
    refine iff_of_false ?_ (by simp)
    rintro ⟨depth, hnone⟩
    obtain ⟨heven, hodd⟩ := nested_of_next? h (depth / 2)
    rcases Nat.mod_two_eq_zero_or_one depth with hmod | hmod
    · rw [show 2 * (depth / 2) = depth by omega, hnone] at heven
      cases heven
    · rw [show 2 * (depth / 2) + 1 = depth by omega, hnone] at hodd
      cases hodd

/-- However deep calls may be nested, two requests use all of it up, and neither has changed. -/
theorem outcome_of_request {m : Nat} {q : Request} (h : c.value = .request m q) (depth : Nat) :
    c.outcome depth = (c.request, some .endless) := by
  rw [outcome, h]
  exact Builder.addTo_request q c.request depth

/-- The calls that begin when a request is asked to add what a value builds come to an end exactly
    if the value is no request. Then there is only this one, and however deep calls may be nested,
    it appends what a range appends, part by part, or fails and leaves the request as it is. If the
    value is a request, the two ask each other in turn without end, each call failing as the one in
    it does; wherever that is cut off, the two are as before. -/
theorem ends_iff_not_request (number : Nat) (r : Request) (v : Value) :
    let c : Asking := ⟨number, r, v⟩
    r.addBuilt v = c.outcome Builder.maxDepth ∧
    (c.Ends ↔ ∀ m q, v ≠ .request m q) ∧
    ((∀ m q, v ≠ .request m q) → c.nested 1 = none ∧ (∀ depth, c.outcome depth = r.addBuilt v) ∧
      ((∃ p, v = .range p ∧ r.addBuilt v = (r.pushAll p.arguments, none) ∧
          r.addBuilt v = p.draft.addTo r) ∨
        v = .emptyBuilder ∧ r.addBuilt v = (r, some .undefined) ∨
        v.builder? = none ∧ r.addBuilt v = (r, some .noSuchMember))) ∧
    ∀ m q, v = .request m q →
      let d : Asking := ⟨m, q, .request number r⟩
      (∀ n, c.nested (2 * n) = some c ∧ c.nested (2 * n + 1) = some d) ∧
      ∀ depth, c.outcome (depth + 1) = (r, (d.outcome depth).2) ∧
        c.outcome depth = (r, some .endless) ∧ d.outcome depth = (q, some .endless) := by
  intro c
  refine ⟨rfl, ends_iff, fun hv => ?_, ?_⟩
  · have hlast : c.next? = none := next?_eq_none_iff.mpr hv
    exact ⟨hlast, outcome_of_last hlast, addBuilt_of_last hlast⟩
  · rintro m q rfl d
    have hnext : c.next? = some d := rfl
    exact ⟨nested_of_next? hnext, fun depth =>
      ⟨outcome_of_next? hnext depth, outcome_of_request rfl depth, outcome_of_request rfl depth⟩⟩

/-- A range that is limited is added to a request by one call. -/
theorem ends_iff_not_request_range :
    let zrange := Request.ofCommand (.command .zrange)
    let p : Range := ⟨.index, ascii "0", ascii "1", false, some (2, 3)⟩
    (∀ m q, Value.range p ≠ .request m q) ∧
      (Asking.mk 0 zrange (.range p)).Ends ∧
      zrange.addBuilt (.range p) = (⟨.command .zrange, [.blob (ascii "0"), .blob (ascii "1"),
        .keyword .limit, .blob (ascii "2"), .blob (ascii "3")]⟩, none) := by
  intro zrange p
  have hother : ∀ m q, Value.range p ≠ .request m q := by
    intro m q h
    cases h
  obtain ⟨-, hends, hcomes, -⟩ := ends_iff_not_request 0 zrange (.range p)
  obtain ⟨-, -, hrange | ⟨h, -⟩ | ⟨h, -⟩⟩ := hcomes hother
  · obtain ⟨q, hq, hadded, -⟩ := hrange
    obtain rfl := Value.range.inj hq
    refine ⟨hother, hends.mpr hother, hadded.trans ?_⟩
    decide +kernel
  · cases h
  · cases h

/-- A request that is asked to add what it builds itself asks itself, without end. -/
theorem asking_itself_never_ends :
    let ping := Request.ofCommand (.command .ping)
    let c : Asking := ⟨0, ping, .request 0 ping⟩
    (∀ depth, c.nested depth = some c) ∧ ¬ c.Ends := by
  intro ping c
  have hnested : ∀ depth, c.nested depth = some c := by
    intro depth
    induction depth with
    | zero => rfl
    | succ depth ih =>
      rw [nested, ih]
      rfl
  refine ⟨hnested, ?_⟩
  rintro ⟨depth, hnone⟩
  rw [hnested] at hnone
  cases hnone

end Asking
end CommandWire
