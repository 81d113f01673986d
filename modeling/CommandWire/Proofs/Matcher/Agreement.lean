import Mathlib.Tactic.TFAE
import CommandWire.Matcher.Matches
import CommandWire.Proofs.Wire.Decoding

/-! Testing a request for the arguments of another one is testing for the same bytes on the wire.

    The arguments can be asked for in one list, which is walked along both requests after a look at
    the lengths, or place by place, each looked up on its own. Each way sees exactly the bytes of
    the arguments, and so does the wire form:

        whole      lengths, then both lists in step ───┐
        byPlace    length, then place after place ─────┼── raws a = raws b
        encode     length in front of each argument ───┘ -/

namespace CommandWire

namespace Request

@[simp] theorem length_raws (r : Request) : r.raws.length = r.size := by
  rw [raws, List.length_map, length_arguments]

/-- A place holds an argument with the bytes that stand there. -/
theorem map_raw_at? (r : Request) (i : Nat) : (r.at? i).map Argument.raw = r.raws[i]? := by
  rw [at?_natCast, raws, List.getElem?_map]

end Request

namespace Matcher

/-- Asks for all arguments of a request at once. -/
def whole (r : Request) : Matcher := .hasArguments (r.arguments.map .argument)

/-- Asks for the number of a request's arguments, and for each of them at its place. -/
def byPlace (r : Request) : Matcher :=
  .allOf (.hasArgumentCount (.int r.size) ::
    r.arguments.mapIdx fun i e => .hasArgumentAt (.int i) (.argument e))

/-! ### What one test sees -/

@[simp] theorem meets_argument (e a : Argument) :
    (Value.argument e).meets (.argument a) = (e.raw == a.raw) := rfl

variable {r : Request} {number : Nat}

theorem matches_hasCommand_iff {c : Argument} :
    (hasCommand (.argument c)).matches (.request number r) = true ↔ c.raw = r.command.raw := by
  rw [Matcher.matches, meets_argument, beq_iff_eq]

theorem matches_hasArgumentCount_iff {n : Nat} :
    (hasArgumentCount (.int n)).matches (.request number r) = true ↔ n = r.size := by
  have hmeets : (hasArgumentCount (.int n)).matches (.request number r) = ((n : Int) == r.size) :=
    rfl
  rw [hmeets, beq_iff_eq, Int.natCast_inj]

/-- An index of any kind has to name a place, and the bytes there have to be the same. -/
theorem matches_hasArgumentAt_value_iff {index : Value} {e : Argument} :
    (hasArgumentAt index (.argument e)).matches (.request number r) = true ↔
      (r.argumentAt? index).map Argument.raw = some e.raw := by
  rw [Matcher.matches]
  cases r.argumentAt? index with
  | none => simp
  | some a =>
    rw [Option.map_some, Option.some_inj]
    show (e.raw == a.raw) = true ↔ a.raw = e.raw
    rw [beq_iff_eq, eq_comm]

theorem matches_hasArgumentAt_iff {i : Nat} {e : Argument} :
    (hasArgumentAt (.int i) (.argument e)).matches (.request number r) = true ↔
      r.raws[i]? = some e.raw := by
  rw [← Request.map_raw_at?]
  exact matches_hasArgumentAt_value_iff

/-- In lists of one length the walk compares every argument. -/
theorem meetEach_iff {es as : List Argument} (h : es.length = as.length) :
    Value.meetEach (es.map .argument) as = true ↔ es.map Argument.raw = as.map Argument.raw := by
  induction es generalizing as with
  | nil =>
    obtain rfl := List.eq_nil_of_length_eq_zero h.symm
    exact iff_of_true rfl rfl
  | cons e es ih =>
    cases as with
    | nil => cases h
    | cons a as =>
      rw [List.map_cons, Value.meetEach, Bool.and_eq_true, ih (Nat.succ.inj h)]
      simp

theorem matches_hasArguments_iff {es : List Argument} :
    (hasArguments (es.map .argument)).matches (.request number r) = true ↔
      es.map Argument.raw = r.raws := by
  rw [Matcher.matches, List.length_map, Bool.and_eq_true, beq_iff_eq]
  constructor
  · rintro ⟨hsize, heach⟩
    have hlen : es.length = r.arguments.length := hsize.symm
    exact (meetEach_iff hlen).mp heach
  · intro h
    have hlen : es.length = r.arguments.length := by
      simpa [Request.raws] using congrArg List.length h
    exact ⟨hlen.symm, (meetEach_iff hlen).mpr h⟩

/-- The texts of the arguments are compared with the text that is looked for. -/
theorem matches_hasArgument_iff {s : String} :
    (hasArgument (.text s)).matches (.request number r) = true ↔ ∃ a ∈ r.arguments, a.text = s := by
  have hmeets : ∀ t, (Value.text s).meets (.text t) = (s == t) := fun _ => rfl
  simp only [Matcher.matches, List.any_eq_true, hmeets, beq_iff_eq]
  constructor
  · rintro ⟨a, ha, hs⟩
    exact ⟨a, ha, hs.symm⟩
  · rintro ⟨a, ha, hs⟩
    exact ⟨a, ha, hs.symm⟩

/-! ### All arguments of a request -/

variable {a b : Request}

theorem matches_whole_iff : (whole a).matches (.request number b) = true ↔ a.raws = b.raws :=
  matches_hasArguments_iff

theorem matches_byPlace_iff :
    (byPlace a).matches (.request number b) = true ↔ a.raws = b.raws := by
  rw [byPlace, matches_allOf, List.all_cons, Bool.and_eq_true, matches_hasArgumentCount_iff,
    List.all_eq_true]
  constructor
  · rintro ⟨hsize, hplaces⟩
    refine List.ext_getElem (by simpa using hsize) fun i ha hb => ?_
    have hi : i < a.arguments.length := by simpa using ha
    have hplace : b.raws[i]? = some a.arguments[i].raw :=
      matches_hasArgumentAt_iff.mp (hplaces _ (List.mem_mapIdx.mpr ⟨i, hi, rfl⟩))
    rw [List.getElem?_eq_getElem hb] at hplace
    simpa [Request.raws] using (Option.some.inj hplace).symm
  · intro h
    refine ⟨by simpa using congrArg List.length h, ?_⟩
    rintro m hm
    obtain ⟨i, hi, rfl⟩ := List.mem_mapIdx.mp hm
    rw [matches_hasArgumentAt_iff, ← h, Request.raws, List.getElem?_map,
      List.getElem?_eq_getElem hi, Option.map_some]

/-- Whatever carries the bytes of their arguments: one request passes the test for all arguments of
    another in one list exactly if it passes the test for their number and for each at its place,
    and exactly if both go on the wire as the same bytes. -/
theorem whole_byPlace_encode_tfae (a b : Request) (number : Nat) :
    [(whole a).matches (.request number b) = true,
      (byPlace a).matches (.request number b) = true,
      Wire.encode a = Wire.encode b].TFAE := by
  tfae_have 1 ↔ 2 := matches_whole_iff.trans matches_byPlace_iff.symm
  tfae_have 2 ↔ 3 := matches_byPlace_iff.trans Wire.encode_eq_encode_iff.symm
  tfae_finish

example : (byPlace ⟨.command .set, [.keyword .nx]⟩).matches
    (.request 0 ⟨.blob [83, 69, 84], [.blob [78, 88]]⟩) = true := by decide +kernel

end Matcher
end CommandWire
