import CommandWire.Proofs.Request.Reading
import CommandWire.Request.Edit

/-! A request only grows.

    What a change adds, and why it fails if it does, depends on the change alone and not on the
    request that it is made on. It adds at the end, so a run of changes writes a log:

        command │ added by the 1st change │ added by the 2nd │ …

    Of the changes only one can fail half-way: values that are appended together are kept up to the
    first that is refused. Every view of a request shows this log, or the log without its head. -/

namespace CommandWire

/-- Two requests that ask each other to build never come to an end, and change nothing. -/
theorem Builder.addTo_request (q r : Request) (depth : Nat) :
    (Builder.request q).addTo depth r = (r, some .endless) := by
  induction depth generalizing q r with
  | zero => rfl
  | succ depth ih => rw [Builder.addTo, ih]

namespace Request

/-- Why an attempt to write a value failed, if it did. -/
def whyNot {α : Type} : Except Failure α → Option Failure
  | .ok _ => none
  | .error why => some why

/-- The arguments that values become, up to the first value that is refused. -/
def accepted (vs : List Value) : List Argument :=
  (vs.takeWhile fun v => (Argument.ofValue v).isOk).filterMap fun v => (Argument.ofValue v).toOption

/-- Why the first value that is refused is refused. -/
def firstRefusal (vs : List Value) : Option Failure :=
  vs.findSome? fun v => whyNot (Argument.ofValue v)

/-- What a change adds. -/
def Edit.added : Edit → List Argument
  | .append (.argument a) => [a]
  | .append _ => []
  | .add v => (Argument.ofValue v).toOption.toList
  | .addAll vs => accepted vs
  | .addBuilt (.range p) => p.arguments
  | .addBuilt _ => []

/-- Why a change fails, if it does. -/
def Edit.refusal : Edit → Option Failure
  | .append (.argument _) => none
  | .append v => some (.mistyped .param v.kind)
  | .add v => whyNot (Argument.ofValue v)
  | .addAll vs => firstRefusal vs
  | .addBuilt (.range _) => none
  | .addBuilt .emptyBuilder => some .undefined
  | .addBuilt (.request _ _) => some .endless
  | .addBuilt _ => some .noSuchMember

/-! ### One change -/

@[simp] theorem pushAll_nil (r : Request) : r.pushAll [] = r := by
  rw [pushAll, List.append_nil]

theorem pushAll_append (r : Request) (as bs : List Argument) :
    r.pushAll (as ++ bs) = (r.pushAll as).pushAll bs := by
  rw [pushAll, ← List.append_assoc]
  rfl

theorem accepted_cons_ok {v : Value} {a : Argument} (h : Argument.ofValue v = .ok a)
    (vs : List Value) : accepted (v :: vs) = a :: accepted vs := by
  simp [accepted, h, Except.isOk, Except.toBool, Except.toOption]

theorem accepted_cons_error {v : Value} {why : Failure} (h : Argument.ofValue v = .error why)
    (vs : List Value) : accepted (v :: vs) = [] := by
  simp [accepted, h, Except.isOk, Except.toBool]

theorem add_eq (r : Request) (v : Value) :
    r.add v = (r.pushAll (Argument.ofValue v).toOption.toList, whyNot (Argument.ofValue v)) := by
  rw [add]
  cases Argument.ofValue v with
  | ok a => rfl
  | error why => simp [Except.toOption, whyNot]

/-- Values that are appended together are kept up to the first that is refused, and that one is
    the cause. -/
theorem addAll_eq (r : Request) (vs : List Value) :
    r.addAll vs = (r.pushAll (accepted vs), firstRefusal vs) := by
  induction vs generalizing r with
  | nil => exact (congrArg (·, none) (pushAll_nil r)).symm
  | cons v vs ih =>
    rw [addAll, add, firstRefusal, List.findSome?_cons]
    cases h : Argument.ofValue v with
    | ok a =>
      rw [Attempt.andThen_none, ih, accepted_cons_ok h, ← List.singleton_append, pushAll_append]
      rfl
    | error why =>
      rw [Attempt.andThen_some, accepted_cons_error h, pushAll_nil]
      rfl

/-- A change adds at the end what it adds to any request, and fails as on any request. -/
theorem edit_eq (r : Request) (e : Edit) : r.edit e = (r.pushAll e.added, e.refusal) := by
  cases e with
  | append v =>
    cases v with
    | argument a => rfl
    | _ => exact congrArg (·, _) (pushAll_nil r).symm
  | add v => exact add_eq r v
  | addAll vs => exact addAll_eq r vs
  | addBuilt v =>
    cases v with
    | range p => rfl
    | request number q =>
      have hendless : r.edit (.addBuilt (.request number q)) = (r, some .endless) :=
        Builder.addTo_request q r Builder.maxDepth
      rw [hendless]
      exact congrArg (·, _) (pushAll_nil r).symm
    | _ => exact congrArg (·, _) (pushAll_nil r).symm

/-! ### A run of changes -/

theorem editAll_eq (r : Request) (edits : List Edit) :
    r.editAll edits = r.pushAll (edits.flatMap Edit.added) := by
  induction edits generalizing r with
  | nil => exact (pushAll_nil r).symm
  | cons e edits ih =>
    have hstep : r.editAll (e :: edits) = (r.edit e).1.editAll edits := rfl
    rw [hstep, ih, edit_eq, List.flatMap_cons, pushAll_append]

/-- What a run of changes leads to: the log that it wrote behind what was there. -/
theorem arguments_editAll (r : Request) (edits : List Edit) :
    (r.editAll edits).arguments = r.arguments ++ edits.flatMap Edit.added := by
  rw [editAll_eq, arguments_pushAll]

theorem editAll_append (r : Request) (before after : List Edit) :
    r.editAll (before ++ after) = (r.editAll before).editAll after :=
  List.foldl_append

/-- After more changes a request is what it was, with some arguments behind. -/
theorem editAll_of_prefix {past later : List Edit} (h : past <+: later) (r : Request) :
    ∃ as, r.editAll later = (r.editAll past).pushAll as := by
  obtain ⟨between, rfl⟩ := h
  exact ⟨between.flatMap Edit.added, by rw [editAll_append, editAll_eq _ between]⟩

/-! ### Looking at a place -/

variable {r : Request}

theorem get_of_getElem? {i : Nat} {a : Argument} (h : r.arguments[i]? = some a) :
    r.get (.int i) = .ok a := by
  rw [get, at?_natCast, h]

theorem get_of_outside {i : Int} (h : i < 0 ∨ r.arguments.length ≤ i) :
    r.get (.int i) = .error (.noSuchIndex i r.size) := by
  rw [get, (at?_eq_none_iff r i).mpr h]

theorem get_of_not_int {v : Value} (h : ∀ i, v ≠ .int i) :
    r.get v = .error (.mistyped .index v.kind) := by
  cases v with
  | int i => exact absurd rfl (h i)
  | _ => rfl

/-! ### The log -/

/-- Whatever is asked of a request after it was made, with or without success, its arguments are the
    command and then what the changes added, in order. The next change extends this log by what it
    adds to any request, and fails as it does on any; an argument or a value that is refused leaves
    the request as it is; and whatever comes later, the log so far is the beginning of the log then.
    The size is the length of the log, reading with or without the command shows it with or without
    its head, and a position gives its entry, or one of two errors: no entry stands there, or it is
    no position at all. -/
theorem arguments_are_log (command : Argument) (edits : List Edit) :
    ∃ made, ofValue (.argument command) = .ok made ∧
      let r := made.editAll edits
      let log := command :: edits.flatMap Edit.added
      r.arguments = log ∧
      (∀ e, (r.edit e).1.arguments = log ++ e.added ∧ (r.edit e).2 = e.refusal) ∧
      (∀ v, (r.append v).2 ≠ none → (r.append v).1 = r) ∧
      (∀ v, (r.add v).2 ≠ none → (r.add v).1 = r) ∧
      (∀ later, log <+: (r.editAll later).arguments) ∧
      (r.size = log.length ∧ r.params = log.tail ∧
        (Cursor.arguments true).exhaust r = log.map Argument.raw ∧
        (Cursor.arguments false).exhaust r = log.tail.map Argument.raw) ∧
      (∀ (i : Nat) (a : Argument), log[i]? = some a → r.get (.int i) = .ok a) ∧
      (∀ i : Int, i < 0 ∨ log.length ≤ i → r.get (.int i) = .error (.noSuchIndex i log.length)) ∧
      (∀ v : Value, (∀ i, v ≠ .int i) → r.get v = .error (.mistyped .index v.kind)) := by
  refine ⟨ofCommand command, rfl, ?_⟩
  intro r log
  have hlog : r.arguments = log := arguments_editAll (ofCommand command) edits
  have hparams : r.params = log.tail := congrArg List.tail hlog
  have hsize : r.size = log.length := by rw [← length_arguments, hlog]
  refine ⟨hlog, ?_, ?_, ?_, ?_, ⟨hsize, hparams, ?_, ?_⟩, ?_, ?_, ?_⟩
  · intro e
    rw [edit_eq, arguments_pushAll, hlog]
    exact ⟨rfl, rfl⟩
  · intro v hfails
    cases v with
    | argument a => exact absurd rfl hfails
    | _ => rfl
  · intro v hfails
    rw [add_eq] at hfails ⊢
    cases h : Argument.ofValue v with
    | ok a =>
      rw [h] at hfails
      exact absurd rfl hfails
    | error why => exact pushAll_nil r
  · intro later
    rw [arguments_editAll, hlog]
    exact List.prefix_append _ _
  · rw [Cursor.exhaust_eq_ahead, ← hlog]
    rfl
  · rw [Cursor.exhaust_eq_ahead, ← hparams]
    rfl
  · intro i a hentry
    rw [← hlog] at hentry
    exact get_of_getElem? hentry
  · intro i houtside
    rw [← hlog] at houtside
    rw [get_of_outside houtside, hsize]
  · intro v hv
    exact get_of_not_int hv

/-- An argument that is none, a number, two values with a refused one between them, and a reversed
    range: the log has what came before each refusal, and a truth value is no position in it. -/
theorem arguments_are_log_zrange :
    ∃ made, ofValue (.argument (.command .zrange)) = .ok made ∧
      let r := made.editAll [.append (.text "key"), .add (.int (-7)),
        .addAll [.text "a", .none, .text "b"],
        .addBuilt (.range ⟨.lex, ascii "-", ascii "+", true, none⟩)]
      r.arguments = [.command .zrange, .blob (ascii "-7"), .blob (ascii "a"), .blob (ascii "-"),
        .blob (ascii "+"), .keyword .byLex, .keyword .rev] ∧
      (r.add .none).1 = r ∧ r.get (.int 2) = .ok (.blob (ascii "a")) ∧
      r.get (.int 7) = .error (.noSuchIndex 7 7) ∧
      r.get (.bool true) = .error (.mistyped .index .bool) := by
  obtain ⟨made, hmade, hlog, -, -, hadd, -, -, hin, hout, hother⟩ :=
    arguments_are_log (.command .zrange) [.append (.text "key"), .add (.int (-7)),
      .addAll [.text "a", .none, .text "b"],
      .addBuilt (.range ⟨.lex, ascii "-", ascii "+", true, none⟩)]
  refine ⟨made, hmade, hlog.trans ?_, hadd .none ?_, hin 2 _ ?_, hout 7 (.inr ?_),
    hother (.bool true) ?_⟩
  · decide +kernel
  · exact Option.some_ne_none _
  · decide +kernel
  · decide +kernel
  · intro i h
    cases h

end Request
end CommandWire
