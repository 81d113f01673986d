import CommandWire.Proofs.Stream.Effect
import Mathlib.Data.List.Induction
import Mathlib.Data.List.Perm.Basic

/-! Which bytes reach the sink more than once.

    A drain that fails keeps the whole buffer, also the part that the sink has taken. The next drain
    starts from the front again, and what it hands over first is that part. Whoever watches the sink
    can tell: as long as the buffer is not emptied, of everything that the sink takes the first
    bytes, as many as it had before, are a repetition.

        pending   a b c d e
        torn      |---|          taken by a drain that failed
        taken     a b c          by the next drain: a b again, c for the first time

    What arrives for the first time is always in order and at most once; so the sink is off by the
    repetitions, and by nothing else. -/

namespace CommandWire.Stream

/-- What someone who watches the sink of a stream notes down: how many of the waiting bytes the sink
    has already, the bytes that it took for the first time, and those that it took another time. -/
structure Watch where
  stream : Stream
  torn : Nat
  fresh : Bytes
  again : Bytes

namespace Watch

/-- Before anything was carried out. -/
def start (s : Stream) : Watch := ⟨s, 0, [], []⟩

/-- What is noted down when a stream is found in another state. -/
def observe (w : Watch) (t : Stream) : Watch :=
  let taken := t.sink.content.drop w.stream.sink.content.length
  { stream := t
    torn := if w.stream.pending.length ≤ taken.length then 0 else max w.torn taken.length
    fresh := w.fresh ++ taken.drop w.torn
    again := w.again ++ taken.take w.torn }

/-- What is noted down at one action. -/
def act (w : Watch) (a : Action) : Watch := w.observe (w.stream.act a).1

/-- What is noted down at actions one after another. -/
def actAll (w : Watch) (actions : List Action) : Watch := actions.foldl act w

/-- Whether an action lets the sink take bytes that it has: it takes something while a part of the
    buffer is torn. -/
def repeats (w : Watch) (a : Action) : Prop :=
  0 < w.torn ∧ (w.stream.act a).1.sink.content.drop w.stream.sink.content.length ≠ []

theorem stream_actAll (w : Watch) (actions : List Action) :
    (w.actAll actions).stream = w.stream.actAll actions := by
  induction actions generalizing w with
  | nil => rfl
  | cons a rest ih => exact ih (w.act a)

theorem observe_eq {w : Watch} {t : Stream} {taken : Bytes}
    (content : t.sink.content = w.stream.sink.content ++ taken) :
    w.observe t =
      { stream := t
        torn := if w.stream.pending.length ≤ taken.length then 0 else max w.torn taken.length
        fresh := w.fresh ++ taken.drop w.torn
        again := w.again ++ taken.take w.torn } := by
  rw [observe, content, List.drop_left]

theorem again_act_eq_nil_iff (w : Watch) (a : Action) :
    (w.act a).again = [] ↔ w.again = [] ∧ ¬ w.repeats a := by
  rw [act, Watch.observe, repeats, List.append_eq_nil_iff, List.take_eq_nil_iff]
  refine and_congr_right fun _ => ?_
  rw [not_and_or, not_not, Nat.pos_iff_ne_zero, not_not]

/-- Nothing is repeated exactly when no action on the way repeats something. -/
theorem again_actAll_eq_nil_iff (w : Watch) (actions : List Action) :
    (w.actAll actions).again = [] ↔
      w.again = [] ∧ ∀ before a, before ++ [a] <+: actions → ¬ (w.actAll before).repeats a := by
  induction actions using List.reverseRecOn with
  | nil => simp [actAll]
  | append_singleton done a ih =>
    have hlast : w.actAll (done ++ [a]) = (w.actAll done).act a := List.foldl_concat _ _ _ _
    rw [hlast, again_act_eq_nil_iff, ih, and_assoc]
    refine and_congr_right fun _ => ?_
    constructor
    · rintro ⟨hbefore, hnow⟩ before b hprefix
      rcases List.prefix_concat_iff.mp hprefix with heq | hle
      · obtain ⟨rfl, hb⟩ := List.append_inj' heq rfl
        rwa [List.singleton_inj.mp hb]
      · exact hbefore before b hle
    · intro hall
      exact ⟨fun before b hle => hall before b (hle.trans (List.prefix_append _ _)),
        hall done a (List.prefix_refl _)⟩

/-! ### The invariant -/

/-- The notes are right: the torn part of the buffer has just arrived, what arrived for the first
    time and what has yet to arrive were handed over in this order, and the sink has nothing but
    that and repetitions of it. -/
structure Sound (w : Watch) (handed : Bytes) : Prop where
  torn_le : w.torn ≤ w.stream.pending.length
  arrived : w.stream.pending.take w.torn <:+ w.fresh
  once : (w.fresh ++ w.stream.pending.drop w.torn).Sublist handed
  kept : w.fresh.Sublist w.stream.sink.content
  copies : w.again ⊆ w.fresh
  total : w.stream.sink.content.Perm (w.fresh ++ w.again)

theorem sound_start {s : Stream} (content : s.sink.content = []) (pending : s.pending = []) :
    Sound (start s) [] where
  torn_le := Nat.zero_le _
  arrived := List.nil_suffix
  once := by rw [start, pending]; exact .refl _
  kept := List.nil_sublist _
  copies := List.Subset.refl _
  total := by rw [start, content]; rfl

/-- Of two first parts of a buffer the longer one consists of the one and the rest of the other. -/
theorem take_append_drop_max {l taken rest : Bytes} (split : l = taken ++ rest) (n : Nat) :
    l.take n ++ taken.drop n = l.take (max n taken.length) := by
  have htake : taken = l.take taken.length := by rw [split, List.take_left]
  have hrest : taken.drop n = (l.take (max n taken.length)).drop n := by
    conv => lhs; rw [htake]
    rw [List.drop_take, List.drop_take]
    congr 1
    omega
  have hfirst : l.take n = (l.take (max n taken.length)).take n := by
    rw [List.take_take, Nat.min_eq_left (Nat.le_max_left n _)]
  rw [hrest, hfirst, List.take_append_drop]

/-- Behind the one first part stand the rest of the other and what is in neither. -/
theorem drop_append_drop_max {l taken rest : Bytes} (split : l = taken ++ rest) (n : Nat) :
    taken.drop n ++ l.drop (max n taken.length) = l.drop n := by
  have hwhole := List.take_append_drop (max n taken.length) l
  rw [← take_append_drop_max split, List.append_assoc] at hwhole
  exact List.append_cancel_left (hwhole.trans (List.take_append_drop n l).symm)

/-- A buffer of which something is left over stays torn; of an empty one nothing was torn. -/
theorem torn_of_split {l taken rest : Bytes} {n : Nat} (split : l = taken ++ rest)
    (left : rest = [] → taken = []) (hle : n ≤ l.length) :
    (if l.length ≤ taken.length then 0 else max n taken.length) = max n taken.length := by
  have hlen : l.length = taken.length + rest.length := by rw [split, List.length_append]
  split
  · next hall =>
    have hrest : rest = [] := List.eq_nil_of_length_eq_zero (by omega)
    have hnil := congrArg List.length (left hrest)
    rw [List.length_nil] at hnil
    omega
  · rfl

variable {w : Watch} {handed data taken : Bytes} {t : Stream}

/-- The sink took some more, in which a torn part comes first. -/
theorem Sound.notes (h : Sound w handed) (again : taken.take w.torn ⊆ w.fresh)
    (content : t.sink.content = w.stream.sink.content ++ taken) :
    (w.fresh ++ taken.drop w.torn).Sublist t.sink.content ∧
      w.again ++ taken.take w.torn ⊆ w.fresh ++ taken.drop w.torn ∧
      t.sink.content.Perm
        ((w.fresh ++ taken.drop w.torn) ++ (w.again ++ taken.take w.torn)) := by
  rw [content]
  refine ⟨h.kept.append (List.drop_sublist _ _), ?_, ?_⟩
  · refine List.append_subset.mpr ⟨?_, ?_⟩
    · exact fun b hb => List.mem_append_left _ (h.copies hb)
    · exact fun b hb => List.mem_append_left _ (again hb)
  · have htaken : taken.Perm (taken.drop w.torn ++ taken.take w.torn) := by
      conv => lhs; rw [← List.take_append_drop w.torn taken]
      exact List.perm_append_comm
    refine (h.total.append htaken).trans ?_
    rw [List.append_assoc, List.append_assoc]
    refine List.Perm.append_left _ ?_
    rw [← List.append_assoc, ← List.append_assoc]
    exact List.perm_append_comm.append_right _

/-- The buffer was not emptied, but a first part of it may have been taken. -/
theorem Sound.short {rest more : Bytes} (h : Sound w handed)
    (split : w.stream.pending = taken ++ rest) (left : rest = [] → taken = [])
    (content : t.sink.content = w.stream.sink.content ++ taken)
    (pending : t.pending = w.stream.pending ++ more) (among : more.Sublist data) :
    Sound (w.observe t) (handed ++ data) := by
  have hmax : max w.torn taken.length ≤ w.stream.pending.length := by
    refine Nat.max_le.mpr ⟨h.torn_le, ?_⟩
    rw [split, List.length_append]
    exact Nat.le_add_right _ _
  have hagain : taken.take w.torn ⊆ w.fresh := by
    intro b hb
    refine h.arrived.subset ?_
    rw [split, List.take_append]
    exact List.mem_append_left _ hb
  obtain ⟨hkept, hcopies, htotal⟩ := h.notes hagain content
  rw [observe_eq content, torn_of_split split left h.torn_le]
  refine ⟨?_, ?_, ?_, hkept, hcopies, htotal⟩
  · show max w.torn taken.length ≤ t.pending.length
    rw [pending, List.length_append]
    exact Nat.le_add_right_of_le hmax
  · -- the part that is torn now has arrived, in an earlier drain or just now
    rw [pending, List.take_append_of_le_length hmax, ← take_append_drop_max split]
    obtain ⟨before, hbefore⟩ := h.arrived
    exact ⟨before, by rw [← List.append_assoc, hbefore]⟩
  · rw [pending, List.drop_append_of_le_length hmax, ← List.append_assoc, List.append_assoc w.fresh,
      drop_append_drop_max split]
    exact h.once.append among

/-- The buffer was emptied, behind which the sink may have taken some bytes of the action. -/
theorem Sound.full {direct : Bytes} (h : Sound w handed)
    (content : t.sink.content = w.stream.sink.content ++ w.stream.pending ++ direct)
    (among : (direct ++ t.pending).Sublist data) : Sound (w.observe t) (handed ++ data) := by
  rw [List.append_assoc] at content
  have hdrop : (w.stream.pending ++ direct).drop w.torn = w.stream.pending.drop w.torn ++ direct :=
    List.drop_append_of_le_length h.torn_le
  have hagain : (w.stream.pending ++ direct).take w.torn ⊆ w.fresh := by
    rw [List.take_append_of_le_length h.torn_le]
    exact h.arrived.subset
  obtain ⟨hkept, hcopies, htotal⟩ := h.notes hagain content
  rw [observe_eq content, if_pos (by rw [List.length_append]; exact Nat.le_add_right _ _)]
  refine ⟨Nat.zero_le _, List.nil_suffix, ?_, hkept, hcopies, htotal⟩
  rw [hdrop, List.drop_zero, ← List.append_assoc, List.append_assoc]
  exact h.once.append among

/-- One action of any of the five kinds. -/
theorem Sound.observe {a : Action} {outcome : Attempt Stream} (h : Sound w handed)
    (heffect : Effect w.stream a outcome) : Sound (w.observe outcome.1) (handed ++ a.data) := by
  cases heffect with
  | idle lost content pending =>
    exact h.short (List.nil_append _).symm (fun _ => rfl) (content.trans (List.append_nil _).symm)
      (pending.trans (List.append_nil _).symm) (List.nil_sublist _)
  | queued fits content pending =>
    exact h.short (List.nil_append _).symm (fun _ => rfl) (content.trans (List.append_nil _).symm)
      pending (.refl _)
  | torn split left content pending =>
    exact h.short split (fun hnil => absurd hnil left) content
      (pending.trans (List.append_nil _).symm) (List.nil_sublist _)
  | spilled split left content pending =>
    refine h.full content ?_
    rw [pending, List.append_nil, split]
    exact List.sublist_append_left _ _
  | emptied kept split fits content pending =>
    refine h.full content ?_
    rw [pending, split]

/-- Any number of actions. -/
theorem Sound.actAll (h : Sound w handed) (actions : List Action) :
    Sound (w.actAll actions) (handed ++ actions.flatMap Action.data) := by
  induction actions generalizing w handed with
  | nil => rwa [List.flatMap_nil, List.append_nil]
  | cons a rest ih =>
    have hstep := ih (h.observe (effect_act w.stream a))
    rwa [List.append_assoc, ← List.flatMap_cons] at hstep

end Watch

/-- At every moment of every run, over every sink: the bytes that the sink took for the first time
    were handed over in this order, each at most once, and everything else that it has is a
    repetition of some of them. So the sink has a subsequence of what was handed over if nothing was
    repeated, and only then as long as the repeated bytes can be told from the others. -/
theorem sublist_iff_nothing_again {size : Int} (hsize : 1 ≤ size) (responses : List Response)
    (flushes : List (Option Fault)) :
    ∃ s₀, start (some (.ofScript responses flushes)) (some (.int size)) = .ok s₀ ∧
      ∀ ops done s, Moment s₀ ops done s →
        let w := (Watch.start s₀).actAll done
        (w.fresh.Sublist (handed done) ∧ w.again ⊆ w.fresh ∧
          s.sink.content.Perm (w.fresh ++ w.again)) ∧
        (w.again = [] ↔
          ∀ before a, before ++ [a] <+: done → ¬ ((Watch.start s₀).actAll before).repeats a) ∧
        (w.again = [] → s.sink.content.Sublist (handed done)) ∧
        ((∀ b ∈ w.again, (handed done).count b = 1) →
          s.sink.content.Sublist (handed done) → w.again = []) := by
  refine ⟨_, start_of_pos hsize _, ?_⟩
  intro ops done s hs w
  have hw : w.Sound ([] ++ handed done) := (Watch.sound_start rfl rfl).actAll done
  rw [List.nil_append] at hw
  have hstream : w.stream = s := (Watch.stream_actAll _ done).trans hs.state.symm
  have hfresh : w.fresh.Sublist (handed done) := (List.sublist_append_left _ _).trans hw.once
  have htotal := hw.total
  have hkept := hw.kept
  rw [hstream] at htotal hkept
  refine ⟨⟨hfresh, hw.copies, htotal⟩, ?_, ?_, ?_⟩
  · rw [Watch.again_actAll_eq_nil_iff]
    exact and_iff_right rfl
  · intro hagain
    rw [hagain, List.append_nil] at htotal
    rwa [← hkept.eq_of_length htotal.length_eq.symm]
  · intro hone hsub
    refine List.eq_nil_iff_forall_not_mem.mpr fun b hb => ?_
    have hfirst : 1 ≤ w.fresh.count b := List.one_le_count_iff.mpr (hw.copies hb)
    have hsecond : 1 ≤ w.again.count b := List.one_le_count_iff.mpr hb
    have hcount : (w.fresh ++ w.again).count b ≤ (handed done).count b := by
      rw [← htotal.count_eq]
      exact hsub.count_le b
    rw [List.count_append, hone b hb] at hcount
    omega

/-- A flush that takes nothing and then would have to wait tears nothing, so the flush after it
    repeats nothing. -/
theorem nothing_again_after_blocked_flush :
    (1 : Int) ≤ 8 ∧
      ∃ s₀, start (some (.ofScript [.blocks, .takes 2] [])) (some (.int 8)) = .ok s₀ ∧
        ((Watch.start s₀).actAll (s₀.trace [.write [97, 98, 99], .flush, .flush])).again = [] ∧
        (s₀.performAll [.write [97, 98, 99], .flush, .flush]).sink.content.Sublist
          (handed (s₀.trace [.write [97, 98, 99], .flush, .flush])) := by
  obtain ⟨s₀, hstart, hrun⟩ :=
    sublist_iff_nothing_again (by decide : (1 : Int) ≤ 8) [.blocks, .takes 2] []
  obtain ⟨-, -, hsublist, -⟩ :=
    hrun _ _ _ (moment_performAll s₀ [.write [97, 98, 99], .flush, .flush])
  have hagain :
      ((Watch.start s₀).actAll (s₀.trace [.write [97, 98, 99], .flush, .flush])).again = [] := by
    rw [start_of_pos (by decide)] at hstart
    obtain rfl := Except.ok.inj hstart
    decide +kernel
  exact ⟨by decide, s₀, hstart, hagain, hsublist hagain⟩

/-- A flush takes the first of three bytes and fails, and the flush after it starts from the front:
    the sink has that byte twice, although it was handed over once. -/
theorem first_byte_twice_after_torn_flush :
    ∃ s₀, start (some (.ofScript [.takes 1, .raises ⟨"broken", .inputOutput, "gone"⟩] []))
        (some (.int 8)) = .ok s₀ ∧
      handed (s₀.trace [.write [97, 98, 99], .flush, .flush]) = [97, 98, 99] ∧
      (s₀.performAll [.write [97, 98, 99], .flush, .flush]).sink.content = [97, 97, 98, 99] ∧
      ¬ (s₀.performAll [.write [97, 98, 99], .flush, .flush]).sink.content.Sublist
        (handed (s₀.trace [.write [97, 98, 99], .flush, .flush])) := by
  refine ⟨_, start_of_pos (by decide) _, ?_⟩
  decide +kernel

end CommandWire.Stream
