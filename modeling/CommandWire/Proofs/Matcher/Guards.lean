import CommandWire.Request.Edit
import CommandWire.Value.Equality
import CommandWire.Value.Printed

/-! Matching cannot fail, and only a request meets a condition.

    A match is carried out by steps any of which could fail: members are asked of an item that may
    have none, an index is compared that may have no order, a place is looked up that may not exist,
    the bytes of a part are asked for that may be no argument. Each step stands behind a guard that
    keeps out just what it fails on:

        item is a request?  ──▶ its members ──▶ index is an integer? ──▶ in range? ──▶ the place
                │                                      │                     │
                └──────────── no match ────────────────┴─────────────────────┘

    So carrying out a match, with all its steps, comes to what the matcher says. What is behind the
    first guard is never reached with anything but a request; hence all that a foreign item can
    match is a conjunction without any condition in it. -/

namespace CommandWire

/-! ### Steps that can fail, and their guards -/

namespace Value

/-- Whether a value is a request. -/
def isRequest : Value → Bool
  | .request _ _ => true
  | _ => false

/-- Whether a value is an argument. -/
def isArgument : Value → Bool
  | .argument _ => true
  | _ => false

/-- Whether a value is an integer; a truth value does not count as one here. -/
def isInteger : Value → Bool
  | .int _ => true
  | _ => false

/-- The request whose members are asked for; other values do not have them. -/
def members : Value → Except Failure Request
  | .request _ r => .ok r
  | _ => .error .noSuchMember

/-- The integer that is compared with another one; other values have no order among them. -/
def ordinal : Value → Except Failure Int
  | .int n => .ok n
  | v => .error (.incomparable v.kind)

/-- Whether a value names a place of a request. -/
def inRange (index : Value) (r : Request) : Except Failure Bool :=
  if index.isInteger then do
    let i ← index.ordinal
    return 0 ≤ i && i < r.size
  else return false

end Value

/-! ### A match, step by step -/

mutual

/-- Carries out a match. -/
def Matcher.carryOut : Matcher → Value → Except Failure Bool
  | .hasCommand command, item =>
    if item.isRequest then do
      let r ← item.members
      command.ask (.argument r.command)
    else return false
  | .hasArgumentCount count, item =>
    if item.isRequest then do
      let r ← item.members
      count.ask (.int r.size)
    else return false
  | .hasArgumentAt index expected, item =>
    if item.isRequest then do
      let r ← item.members
      if ← index.inRange r then do
        let a ← r.get index
        expected.ask (.argument a)
      else return false
    else return false
  | .hasArguments expected, item =>
    if item.isRequest then do
      let r ← item.members
      if r.size = expected.length then Value.askEach expected r.arguments else return false
    else return false
  | .hasArgument expected, item =>
    if item.isRequest then do
      let r ← item.members
      r.arguments.anyM fun a => expected.ask (.text a.text)
    else return false
  | .allOf parts, item => Matcher.carryOutAll parts item

/-- Carries out the matches of a conjunction in turn, up to the first that is none. -/
def Matcher.carryOutAll : List Matcher → Value → Except Failure Bool
  | [], _ => return true
  | m :: ms, item => do
    if ← m.carryOut item then Matcher.carryOutAll ms item else return false

/-- Asks an expected value whether it equals a part of a request. It is the matcher that is asked
    where one is expected, on whichever side it stands; an argument looks at the bytes of a part,
    which have to be there. -/
def Value.ask : Value → Value → Except Failure Bool
  | .matcher m, part => m.carryOut part
  | .argument a, part =>
    if part.isArgument then do
      let b ← part.toArgument
      return a.raw == b.raw
    else return false
  | expected, part => return expected.atomEqv part

/-- Asks expected values whether they equal arguments, one by one, up to the first that does not. -/
def Value.askEach : List Value → List Argument → Except Failure Bool
  | e :: es, a :: as => do
    if ← e.ask (.argument a) then Value.askEach es as else return false
  | _, _ => return true

end

namespace Matcher

/-- Whether a matcher equals an item. -/
def equal (m : Matcher) (item : Value) : Except Failure Bool := m.carryOut item

/-- Whether a matcher differs from an item. -/
def unequal (m : Matcher) (item : Value) : Except Failure Bool := return !(← m.carryOut item)

end Matcher

/-! ### No step fails -/

/-- An index that is in range has an argument, and no other has one. -/
theorem Value.inRange_eq (index : Value) (r : Request) :
    index.inRange r = .ok (r.argumentAt? index).isSome := by
  cases index with
  | int i =>
    have hrange : (0 ≤ i && i < r.size) = (r.at? i).isSome := by
      rw [Bool.eq_iff_iff, Option.isSome_iff_ne_none, ne_eq, Request.at?_eq_none_iff]
      simp
    exact congrArg Except.ok hrange
  | _ => rfl

theorem Request.get_of_argumentAt? {r : Request} {index : Value} {a : Argument}
    (h : r.argumentAt? index = some a) : r.get index = .ok a := by
  cases index with
  | int i =>
    have hat : r.at? i = some a := h
    rw [get, hat]
  | _ => cases h

mutual

theorem Matcher.carryOut_eq (m : Matcher) (item : Value) :
    m.carryOut item = .ok (m.matches item) := by
  cases m with
  | hasCommand command =>
    cases item with
    | request number r => exact command.ask_eq (.argument r.command)
    | _ => rfl
  | hasArgumentCount count =>
    cases item with
    | request number r => exact count.ask_eq (.int r.size)
    | _ => rfl
  | hasArgumentAt index expected =>
    cases item with
    | request number r =>
      have hsteps : (Matcher.hasArgumentAt index expected).carryOut (.request number r) =
          index.inRange r >>= fun inside =>
            if inside then r.get index >>= fun a => expected.ask (.argument a)
            else return false := rfl
      rw [hsteps, Value.inRange_eq, Matcher.matches]
      cases h : r.argumentAt? index with
      | none => rfl
      | some a =>
        show (r.get index >>= fun a => expected.ask (.argument a)) = _
        rw [Request.get_of_argumentAt? h]
        exact expected.ask_eq (.argument a)
    | _ => rfl
  | hasArguments expected =>
    cases item with
    | request number r =>
      have hsteps : (Matcher.hasArguments expected).carryOut (.request number r) =
          if r.size = expected.length then Value.askEach expected r.arguments
          else return false := rfl
      rw [hsteps, Matcher.matches]
      split
      · next hsize =>
        rw [Value.askEach_eq, hsize, beq_self_eq_true, Bool.true_and]
      · next hsize =>
        rw [beq_false_of_ne hsize, Bool.false_and]
        rfl
    | _ => rfl
  | hasArgument expected =>
    cases item with
    | request number r =>
      have hsteps : (Matcher.hasArgument expected).carryOut (.request number r) =
          r.arguments.anyM fun a => expected.ask (.text a.text) := rfl
      have hask : (fun a : Argument => expected.ask (.text a.text)) =
          fun a => .ok (expected.meets (.text a.text)) := funext fun a => expected.ask_eq _
      rw [hsteps, Matcher.matches, hask]
      exact List.anyM_pure
    | _ => rfl
  | allOf parts =>
    rw [Matcher.carryOut, Matcher.matches]
    exact Matcher.carryOutAll_eq parts item
termination_by structural m

theorem Matcher.carryOutAll_eq (ms : List Matcher) (item : Value) :
    Matcher.carryOutAll ms item = .ok (Matcher.allMatch ms item) := by
  cases ms with
  | nil => rfl
  | cons m ms =>
    rw [Matcher.carryOutAll, Matcher.allMatch, m.carryOut_eq item]
    cases m.matches item with
    | true => exact Matcher.carryOutAll_eq ms item
    | false => rfl
termination_by structural ms

theorem Value.ask_eq (e part : Value) : e.ask part = .ok (e.meets part) := by
  cases e with
  | matcher m =>
    rw [Value.ask, Value.meets]
    exact m.carryOut_eq part
  | argument a =>
    cases part with
    | argument b => rfl
    | _ => rfl
  | _ => rfl
termination_by structural e

theorem Value.askEach_eq (es : List Value) (as : List Argument) :
    Value.askEach es as = .ok (Value.meetEach es as) := by
  cases es with
  | nil => rfl
  | cons e es =>
    cases as with
    | nil => rfl
    | cons a as =>
      rw [Value.askEach, Value.meetEach, e.ask_eq]
      cases e.meets (.argument a) with
      | true => exact Value.askEach_eq es as
      | false => rfl
termination_by structural es

end

/-! ### Conditions -/

namespace Matcher

/-- Whether a matcher is a condition on requests, and not a conjunction. -/
def isCondition : Matcher → Bool
  | .allOf _ => false
  | _ => true

mutual

/-- The conditions in a tree of conjunctions, from left to right. -/
def leaves : Matcher → List Matcher
  | .allOf parts => leavesEach parts
  | m => [m]

/-- The conditions in several trees. -/
def leavesEach : List Matcher → List Matcher
  | [] => []
  | m :: ms => m.leaves ++ leavesEach ms

end

theorem leaves_of_isCondition {m : Matcher} (h : m.isCondition = true) : m.leaves = [m] := by
  cases m with
  | allOf parts => cases h
  | _ => rw [leaves]; simp

mutual

theorem isCondition_of_mem_leaves {m leaf : Matcher} (h : leaf ∈ m.leaves) :
    leaf.isCondition = true := by
  cases m with
  | allOf parts =>
    rw [leaves] at h
    exact isCondition_of_mem_leavesEach h
  | _ =>
    rw [leaves_of_isCondition rfl] at h
    rw [List.mem_singleton.mp h]
    rfl
termination_by structural m

theorem isCondition_of_mem_leavesEach {ms : List Matcher} {leaf : Matcher}
    (h : leaf ∈ leavesEach ms) : leaf.isCondition = true := by
  cases ms with
  | nil => cases h
  | cons m ms =>
    rcases List.mem_append.mp h with h | h
    · exact isCondition_of_mem_leaves h
    · exact isCondition_of_mem_leavesEach h
termination_by structural ms

end

mutual

/-- A tree of conjunctions accepts what every condition in it accepts. -/
theorem matches_eq_all_leaves (m : Matcher) (item : Value) :
    m.matches item = m.leaves.all (·.matches item) := by
  cases m with
  | allOf parts =>
    rw [Matcher.matches, leaves]
    exact allMatch_eq_all_leaves parts item
  | _ => rw [leaves_of_isCondition rfl, List.all_cons, List.all_nil, Bool.and_true]
termination_by structural m

theorem allMatch_eq_all_leaves (ms : List Matcher) (item : Value) :
    allMatch ms item = (leavesEach ms).all (·.matches item) := by
  cases ms with
  | nil => rfl
  | cons m ms =>
    rw [allMatch, leavesEach, List.all_append, matches_eq_all_leaves m item,
      allMatch_eq_all_leaves ms item]
termination_by structural ms

end

/-- No condition accepts anything but a request. -/
theorem matches_foreign {m : Matcher} {item : Value} (hm : m.isCondition = true)
    (hitem : item.isRequest = false) : m.matches item = false := by
  cases item with
  | request number r => cases hitem
  | _ =>
    cases m with
    | allOf parts => cases hm
    | _ => rfl

/-- Whatever a matcher expects and whatever the item is, no step of a match fails, also where the
    match is asked for by `==` or by its negation, and what comes of it is whether the matcher
    accepts the item. An item that is no request is accepted exactly if there is no condition at all
    in the tree of conjunctions. -/
theorem carryOut_never_fails (m : Matcher) (item : Value) :
    m.carryOut item = .ok (m.matches item) ∧
      m.equal item = .ok ((Value.matcher m).eqv item) ∧
      m.unequal item = .ok (!(Value.matcher m).eqv item) ∧
      (Value.matcher m).eqv item = m.matches item ∧
      (item.isRequest = false → (m.matches item = true ↔ m.leaves = [])) := by
  have hmatch := m.carryOut_eq item
  refine ⟨hmatch, ?_, ?_, Value.matcher_eqv m item, ?_⟩
  · rw [equal, hmatch, Value.matcher_eqv]
  · rw [unequal, hmatch, Value.matcher_eqv]
    rfl
  · intro hitem
    have hnone : ∀ leaf ∈ m.leaves, leaf.matches item = false := fun leaf hleaf =>
      matches_foreign (isCondition_of_mem_leaves hleaf) hitem
    rw [matches_eq_all_leaves]
    rcases hleaves : m.leaves with _ | ⟨leaf, others⟩
    · exact iff_of_true rfl rfl
    · refine iff_of_false ?_ (List.cons_ne_nil _ _)
      rw [List.all_cons, hnone leaf (hleaves ▸ List.mem_cons_self), Bool.false_and]
      exact Bool.false_ne_true

/-- A text as an index and a list as an expected value make no match fail. A list is no request, so
    it matches a conjunction of conjunctions only as long as no condition is among them. -/
theorem carryOut_never_fails_list :
    let m := allOf [allOf [], hasArgumentAt (.text "1") (.list [.matcher (allOf [])])]
    m.carryOut (.request 0 (.ofCommand (.command .ping))) = .ok false ∧
      (Value.list [.none]).isRequest = false ∧
      (m.matches (.list [.none]) = true ↔ m.leaves = []) ∧
      (allOf [allOf []]).matches (.list [.none]) = true := by
  intro m
  obtain ⟨hsteps, -⟩ := carryOut_never_fails m (.request 0 (.ofCommand (.command .ping)))
  obtain ⟨-, -, -, -, hforeign⟩ := carryOut_never_fails m (.list [.none])
  obtain ⟨-, -, -, -, hempty⟩ := carryOut_never_fails (allOf [allOf []]) (.list [.none])
  exact ⟨hsteps, rfl, hforeign rfl, (hempty rfl).mpr rfl⟩

end Matcher
end CommandWire
