import CommandWire.Proofs.Matcher.Difference
import CommandWire.Proofs.Matcher.Guards

/-! What a failed conjunction is blamed on.

    A conjunction passes the blame to its first part that does not accept the item, and that part,
    if it is a conjunction itself, to its own first part, and so on down to a condition:

        allOf ─▶ first failing part ─▶ … ─▶ first failing part ─▶ condition
                 its description ␣         its description ␣     what it found

    Every part that the way passes on its left accepts the item, with all conditions in it. So the
    condition at the end is the leftmost one in the whole tree that fails, however its parts are
    grouped. -/

namespace CommandWire

namespace Value

/-- Whether a value counts as an integer; here a truth value does. -/
def isIntegral : Value → Bool
  | .int _ | .bool _ => true
  | _ => false

/-- Whether a value is a text. -/
def isText : Value → Bool
  | .text _ => true
  | _ => false

theorem toArgument_of_isArgument {v : Value} (h : v.isArgument = true) :
    ∃ a, v.toArgument = .ok a := by
  cases v with
  | argument a => exact ⟨a, rfl⟩
  | _ => cases h

theorem plain_of_isIntegral {v : Value} (h : v.isIntegral = true) : ∃ text, v.plain = .ok text := by
  cases v with
  | int n => exact ⟨_, rfl⟩
  | bool b => exact ⟨_, rfl⟩
  | _ => cases h

theorem shown_of_isText {v : Value} (h : v.isText = true) : ∃ text, v.shown = .ok text := by
  cases v with
  | text s => exact ⟨_, rfl⟩
  | _ => cases h

theorem mapM_toArgument_of_all {es : List Value} (h : es.all isArgument = true) :
    ∃ as, es.mapM toArgument = .ok as := by
  induction es with
  | nil => exact ⟨[], rfl⟩
  | cons e es ih =>
    simp only [List.all_cons, Bool.and_eq_true] at h
    obtain ⟨a, ha⟩ := toArgument_of_isArgument h.1
    obtain ⟨as, has⟩ := ih h.2
    exact ⟨a :: as, by simp [List.mapM_cons, ha, has, bind, Except.bind, pure, Except.pure]⟩

end Value

namespace Matcher

variable {item : Value}

/-! ### What can be said of a tree -/

/-- Whether a condition expects values of the kinds that it is made for. -/
def wellTyped : Matcher → Bool
  | .hasCommand command => command.isArgument
  | .hasArgumentCount count => count.isIntegral
  | .hasArgumentAt index expected => index.isIntegral && expected.isArgument
  | .hasArguments expected => expected.all Value.isArgument
  | .hasArgument expected => expected.isText
  | .allOf _ => true

theorem described_of_condition {m : Matcher} (hm : m.isCondition = true)
    (h : m.wellTyped = true) : ∃ text, m.described = .ok text := by
  cases m with
  | hasCommand command =>
    obtain ⟨a, ha⟩ := Value.toArgument_of_isArgument h
    exact ⟨_, by rw [described, ha]; rfl⟩
  | hasArgumentCount count =>
    obtain ⟨text, htext⟩ := Value.plain_of_isIntegral h
    exact ⟨_, by rw [described, ← Value.plain, htext]; rfl⟩
  | hasArgumentAt index expected =>
    simp only [wellTyped, Bool.and_eq_true] at h
    obtain ⟨text, htext⟩ := Value.plain_of_isIntegral h.1
    obtain ⟨a, ha⟩ := Value.toArgument_of_isArgument h.2
    exact ⟨_, by rw [described, ← Value.plain, htext, ha]; rfl⟩
  | hasArguments expected =>
    obtain ⟨as, has⟩ := Value.mapM_toArgument_of_all h
    exact ⟨_, by rw [described, has]; rfl⟩
  | hasArgument expected =>
    obtain ⟨text, htext⟩ := Value.shown_of_isText h
    exact ⟨_, by rw [described, htext]; rfl⟩
  | allOf parts => cases hm

mutual

/-- A tree can be described if all its conditions are well typed. -/
theorem described_of_wellTyped (m : Matcher) (h : ∀ leaf ∈ m.leaves, leaf.wellTyped = true) :
    ∃ text, m.described = .ok text := by
  cases m with
  | allOf parts =>
    rw [leaves] at h
    obtain ⟨texts, htexts⟩ := describedEach_of_wellTyped parts h
    exact ⟨_, by rw [described, htexts]; rfl⟩
  | _ =>
    refine described_of_condition rfl (h _ ?_)
    rw [leaves_of_isCondition rfl]
    exact List.mem_singleton_self _
termination_by structural m

theorem describedEach_of_wellTyped (ms : List Matcher)
    (h : ∀ leaf ∈ leavesEach ms, leaf.wellTyped = true) :
    ∃ texts, describedEach ms = .ok texts := by
  cases ms with
  | nil => exact ⟨[], rfl⟩
  | cons m ms =>
    rw [leavesEach, List.forall_mem_append] at h
    obtain ⟨text, htext⟩ := described_of_wellTyped m h.1
    obtain ⟨texts, htexts⟩ := describedEach_of_wellTyped ms h.2
    exact ⟨_, by rw [describedEach, htext, htexts]; rfl⟩
termination_by structural ms

end

/-- A condition says what it found, provided that a foreign item can be shown. -/
theorem mismatch_of_condition {m : Matcher} {shown : List Char} (hm : m.isCondition = true)
    (h : m.wellTyped = true) (hitem : item.shown = .ok shown) :
    ∃ found, m.mismatch item = .ok found := by
  have hfound : item.found = .ok ("was ".toList ++ shown) := by rw [Value.found, hitem]; rfl
  cases item with
  | request number r =>
    cases m with
    | hasArgumentAt index expected =>
      simp only [wellTyped, Bool.and_eq_true] at h
      obtain ⟨text, htext⟩ := Value.plain_of_isIntegral h.1
      rw [mismatch, htext]
      cases r.argumentAt? index with
      | some a => exact ⟨_, rfl⟩
      | none => exact ⟨_, rfl⟩
    | allOf parts => cases hm
    | _ => exact ⟨_, rfl⟩
  | _ =>
    cases m with
    | allOf parts => cases hm
    | _ => exact ⟨_, hfound⟩

/-! ### The way down -/

/-- The parts to which a matcher passes the blame, one below the other, and the condition at the
    end, which is at fault. -/
inductive Blames (item : Value) : Matcher → List Matcher → Matcher → Prop where
  | condition {m : Matcher} (isCondition : m.isCondition = true) (fails : m.matches item = false) :
      Blames item m [] m
  | part {before after path : List Matcher} {child leaf : Matcher}
      (accept : ∀ m ∈ before, m.matches item = true) (below : Blames item child path leaf) :
      Blames item (.allOf (before ++ child :: after)) (child :: path) leaf

mutual

/-- There is a way down from every matcher that does not accept the item. -/
theorem exists_blames (m : Matcher) (h : m.matches item = false) :
    ∃ path leaf, Blames item m path leaf := by
  cases m with
  | allOf parts =>
    rw [Matcher.matches] at h
    obtain ⟨before, child, after, path, leaf, rfl, haccept, hbelow⟩ := exists_blames_part parts h
    exact ⟨_, _, .part haccept hbelow⟩
  | _ => exact ⟨_, _, .condition rfl h⟩
termination_by structural m

theorem exists_blames_part (ms : List Matcher) (h : allMatch ms item = false) :
    ∃ before child after path leaf, ms = before ++ child :: after ∧
      (∀ m ∈ before, m.matches item = true) ∧ Blames item child path leaf := by
  cases ms with
  | nil => cases h
  | cons m ms =>
    rcases hm : m.matches item with _ | _
    · obtain ⟨path, leaf, hbelow⟩ := exists_blames m hm
      exact ⟨[], m, ms, path, leaf, rfl, by simp, hbelow⟩
    · rw [allMatch, hm, Bool.true_and] at h
      obtain ⟨before, child, after, path, leaf, rfl, haccept, hbelow⟩ := exists_blames_part ms h
      exact ⟨m :: before, child, after, path, leaf, rfl, by simpa [hm] using haccept, hbelow⟩
termination_by structural ms

end

namespace Blames

variable {m leaf : Matcher} {path : List Matcher}

theorem leaf_isCondition (h : Blames item m path leaf) : leaf.isCondition = true := by
  induction h with
  | condition hm _ => exact hm
  | part _ _ ih => exact ih

theorem leaf_fails (h : Blames item m path leaf) : leaf.matches item = false := by
  induction h with
  | condition _ hfails => exact hfails
  | part _ _ ih => exact ih

end Blames

theorem leavesEach_append (ms ns : List Matcher) :
    leavesEach (ms ++ ns) = leavesEach ms ++ leavesEach ns := by
  induction ms with
  | nil => rfl
  | cons m ms ih => simp [leavesEach, ih]

theorem leaves_allOf_split (before after : List Matcher) (child : Matcher) :
    (allOf (before ++ child :: after)).leaves =
      leavesEach before ++ (child.leaves ++ leavesEach after) := by
  rw [leaves, leavesEach_append, leavesEach]

/-- The condition at the end is the leftmost one of the tree that fails. -/
theorem Blames.leftmost {m leaf : Matcher} {path : List Matcher} (h : Blames item m path leaf) :
    ∃ before after, m.leaves = before ++ leaf :: after ∧
      ∀ other ∈ before, other.matches item = true := by
  induction h with
  | condition hm _ => exact ⟨[], [], leaves_of_isCondition hm, by simp⟩
  | @part before after path child leaf haccept _ ih =>
    obtain ⟨left, right, hleaves, hleft⟩ := ih
    refine ⟨leavesEach before ++ left, right ++ leavesEach after, ?_, ?_⟩
    · rw [leaves_allOf_split, hleaves]
      simp
    · -- what the way passes on its left accepts the item as a whole
      have hbefore : allMatch before item = true := by
        rw [allMatch_eq_all]
        exact List.all_eq_true.mpr haccept
      rw [allMatch_eq_all_leaves, List.all_eq_true] at hbefore
      intro other hother
      rcases List.mem_append.mp hother with hother | hother
      · exact hbefore other hother
      · exact hleft other hother

/-! ### The text of the way -/

theorem mismatchFirst_of_accept {before : List Matcher}
    (haccept : ∀ m ∈ before, m.matches item = true) (rest : List Matcher) :
    mismatchFirst (before ++ rest) item = mismatchFirst rest item := by
  induction before with
  | nil => rfl
  | cons m before ih =>
    rw [List.forall_mem_cons] at haccept
    rw [List.cons_append, mismatchFirst, if_pos haccept.1, ih haccept.2]

theorem Blames.fails {m leaf : Matcher} {path : List Matcher} (h : Blames item m path leaf) :
    m.matches item = false := by
  induction h with
  | condition _ hfails => exact hfails
  | part _ _ ih => simp [ih]

/-- Every part on the way is described in turn, with a blank behind it, and then comes what the
    condition at the end found. -/
theorem Blames.mismatch_eq {m leaf : Matcher} {path : List Matcher} {found : List Char}
    (h : Blames item m path leaf) (htyped : ∀ leaf ∈ m.leaves, leaf.wellTyped = true)
    (hfound : leaf.mismatch item = .ok found) :
    ∃ texts, List.Forall₂ (fun (part : Matcher) text => part.described = .ok text) path texts ∧
      m.mismatch item = .ok (texts.flatMap (· ++ [' ']) ++ found) := by
  induction h with
  | condition _ _ => exact ⟨[], .nil, hfound⟩
  | @part before after path child leaf haccept hbelow ih =>
    have hchild : ∀ leaf ∈ child.leaves, leaf.wellTyped = true := by
      intro leaf hleaf
      refine htyped leaf ?_
      rw [leaves_allOf_split]
      simp [hleaf]
    obtain ⟨text, htext⟩ := described_of_wellTyped child hchild
    obtain ⟨texts, htexts, hmismatch⟩ := ih hchild hfound
    refine ⟨text :: texts, .cons htext htexts, ?_⟩
    rw [mismatch, mismatchFirst_of_accept haccept, mismatchFirst, if_neg (by simp [hbelow.fails]),
      htext, hmismatch]
    simp [bind, Except.bind, pure, Except.pure]

/-! ### Conjunctions and assertions -/

theorem matches_iff_leaves (m : Matcher) (item : Value) :
    m.matches item = true ↔ ∀ leaf ∈ m.leaves, leaf.matches item = true := by
  rw [matches_eq_all_leaves, List.all_eq_true]

/-- A tree of conjunctions accepts an item exactly if all its conditions do, so only what conditions
    there are counts, and not how they are grouped, in what order, or how often. An assertion holds
    exactly then. Otherwise it shows what the tree asks for and a way down to the leftmost condition
    that fails: the descriptions of the parts on that way, each with a blank behind it, and then
    what that condition found. A reason stands on a line before. -/
theorem blames_leftmost_condition (m : Matcher) (item : Value) {shown : List Char}
    (hitem : item.shown = .ok shown) (htyped : ∀ leaf ∈ m.leaves, leaf.wellTyped = true) :
    (m.matches item = true ↔ ∀ leaf ∈ m.leaves, leaf.matches item = true) ∧
    (∀ n : Matcher, (∀ leaf, leaf ∈ n.leaves ↔ leaf ∈ m.leaves) →
      n.matches item = m.matches item) ∧
    (∀ reason, m.check item reason = .ok () ↔ m.matches item = true) ∧
    (m.matches item = false → ∃ path leaf texts asked found,
      Blames item m path leaf ∧
      (∃ before after, m.leaves = before ++ leaf :: after ∧ leaf.matches item = false ∧
        ∀ other ∈ before, other.matches item = true) ∧
      List.Forall₂ (fun (part : Matcher) text => part.described = .ok text) path texts ∧
      leaf.mismatch item = .ok found ∧
      m.mismatch item = .ok (texts.flatMap (· ++ [' ']) ++ found) ∧
      m.described = .ok asked ∧
      ∀ reason, m.check item reason =
        .error (.mismatch (report asked (texts.flatMap (· ++ [' ']) ++ found) reason))) := by
  obtain ⟨asked, hasked⟩ := described_of_wellTyped m htyped
  have hblame : m.matches item = false → ∃ path leaf texts found,
      Blames item m path leaf ∧
      List.Forall₂ (fun (part : Matcher) text => part.described = .ok text) path texts ∧
      leaf.mismatch item = .ok found ∧
      m.mismatch item = .ok (texts.flatMap (· ++ [' ']) ++ found) := by
    intro hfails
    obtain ⟨path, leaf, hblames⟩ := exists_blames m hfails
    obtain ⟨before, after, hleaves, -⟩ := hblames.leftmost
    have hleaf : leaf.wellTyped = true := htyped leaf (by simp [hleaves])
    obtain ⟨found, hfound⟩ := mismatch_of_condition hblames.leaf_isCondition hleaf hitem
    obtain ⟨texts, htexts, hmismatch⟩ := hblames.mismatch_eq htyped hfound
    exact ⟨path, leaf, texts, found, hblames, htexts, hfound, hmismatch⟩
  refine ⟨matches_iff_leaves m item, ?_, ?_, ?_⟩
  · intro n hsame
    rw [Bool.eq_iff_iff, matches_iff_leaves, matches_iff_leaves]
    simp only [hsame]
  · intro reason
    rcases hm : m.matches item with _ | _
    · obtain ⟨path, leaf, texts, found, -, -, -, hmismatch⟩ := hblame hm
      simp [check_of_not_matches hm hasked hmismatch]
    · simp [check, hm]
  · intro hfails
    obtain ⟨path, leaf, texts, found, hblames, htexts, hfound, hmismatch⟩ := hblame hfails
    obtain ⟨before, after, hleaves, hbefore⟩ := hblames.leftmost
    exact ⟨path, leaf, texts, asked, found, hblames,
      ⟨before, after, hleaves, hblames.leaf_fails, hbefore⟩, htexts, hfound, hmismatch, hasked,
      check_of_not_matches hfails hasked hmismatch⟩

/-- The first part that fails is a conjunction, and its second condition is the one at fault. Behind
    it stands another condition that fails, of which nothing is said. -/
theorem blames_leftmost_condition_count :
    let both := allOf [hasArgumentCount (.int 1), hasArgumentCount (.int 3)]
    let m := allOf [allOf [], both, hasArgumentCount (.int 2)]
    let item := Value.request 0 (.ofCommand (.command .ping))
    item.shown = .ok "CommandArguments(['PING'])".toList ∧
      (∀ leaf ∈ m.leaves, leaf.wellTyped = true) ∧
      m.matches item = false ∧
      (∃ path leaf texts found, Blames item m path leaf ∧
        List.Forall₂ (fun (part : Matcher) text => part.described = .ok text) path texts ∧
        m.mismatch item = .ok (texts.flatMap (· ++ [' ']) ++ found)) ∧
      m.mismatch item = .ok ("(CommandArguments with argument count 1) and " ++
        "(CommandArguments with argument count 3) CommandArguments with argument count 3 " ++
        "was CommandArguments with argument count 1").toList := by
  intro both m item
  have hitem : item.shown = .ok "CommandArguments(['PING'])".toList := by decide +kernel
  have htyped : ∀ leaf ∈ m.leaves, leaf.wellTyped = true := by
    simp [m, both, leaves, leavesEach, wellTyped, Value.isIntegral]
  have hfails : m.matches item = false := rfl
  obtain ⟨-, -, -, hblame⟩ := blames_leftmost_condition m item hitem htyped
  obtain ⟨path, leaf, texts, asked, found, hblames, -, htexts, -, hmismatch, -⟩ := hblame hfails
  refine ⟨hitem, htyped, hfails, ⟨path, leaf, texts, found, hblames, htexts, hmismatch⟩, ?_⟩
  decide +kernel

end Matcher
end CommandWire
