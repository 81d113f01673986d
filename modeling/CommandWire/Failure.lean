import CommandWire.Value

/-! What can go wrong, by cause, and the one place where a cause is put into words. -/

namespace CommandWire

/-- What an error from outside is about. -/
inductive Fault.Topic where | inputOutput | content | other
  deriving DecidableEq

/-- An error raised by something outside, such as a sink: the name of its kind, what that kind is
    about, and its words. -/
structure Fault where
  kind : String
  topic : Fault.Topic
  text : String
  deriving DecidableEq

/-- The forms of a number on the wire. -/
inductive NumberForm where | int32 | int64 | double
  deriving DecidableEq

/-- The name of a form. -/
def NumberForm.name : NumberForm → String
  | .int32 => "int"
  | .int64 => "long"
  | .double => "float"

/-- What may not be missing. -/
inductive Subject where
  | text
  | data
  | number (form : NumberForm)
  | argument
  | bulk
  | sink
  deriving DecidableEq

/-- A subject in words. -/
def Subject.phrase : Subject → String
  | .text => "value"
  | .data => "data"
  | .number form => form.name ++ " value"
  | .argument => "command argument"
  | .bulk => "bulk string"
  | .sink => "out"

/-- What a value has to be. -/
inductive Requirement where
  | exactBytes
  | number (form : NumberForm)
  | text
  | bytes
  | keyword
  | command
  | param
  | index
  deriving DecidableEq

/-- A requirement in words. -/
def Requirement.phrase : Requirement → String
  | .exactBytes => "RawParam requires bytes"
  | .number .double => "float value must be a float"
  | .number form => form.name ++ " value must be an int"
  | .text => "expected str"
  | .bytes => "expected bytes"
  | .keyword => "expected Keyword"
  | .command => "command must be Rawable"
  | .param => "param must be Rawable"
  | .index => "index must be an int"

/-- Why an operation failed. -/
inductive Failure where
  /-- Nothing was given for the subject. -/
  | missing (subject : Subject)
  /-- A value of another kind was required. -/
  | mistyped (required : Requirement) (got : Kind)
  /-- The number does not fit its form. -/
  | outOfRange (form : NumberForm) (n : Int)
  /-- A float that is not a number has no text. -/
  | notANumber
  /-- A truth value is no argument, though it counts as an integer elsewhere. -/
  | truthValue
  /-- Values of this kind are not handled here at all. -/
  | unsupported (got : Kind)
  /-- No argument stands at the position. -/
  | noSuchIndex (i : Int) (size : Nat)
  /-- The value has no member of the name that was asked for. -/
  | noSuchMember
  /-- The operation is left open by a general kind of value. -/
  | undefined
  /-- The operation would call itself without end. -/
  | endless
  /-- The value can change, so it has no hash. -/
  | unhashable (got : Kind)
  /-- The value has no order among the integers. -/
  | incomparable (got : Kind)
  /-- A buffer cannot have this size. -/
  | badCapacity (size : String)
  /-- The stream was closed before. -/
  | closed
  /-- The sink cannot take anything now; so many bytes are left. -/
  | blocked (left : Nat)
  /-- The sink took nothing; so many bytes are left. -/
  | refused (left : Nat)
  /-- An error from outside. -/
  | fault (f : Fault)
  /-- A capture in memory failed, which no proper request can cause. -/
  | unserialisable (cause : Failure)
  /-- An assertion did not hold. -/
  | mismatch (report : String)
  deriving DecidableEq

namespace Failure

/-- The words of a failure. -/
def message : Failure → String
  | .missing subject => subject.phrase ++ " must not be None"
  | .mistyped required got => required.phrase ++ ", got " ++ got.name
  | .outOfRange form n => form.name ++ " value out of range: " ++ Decimal.text n
  | .notANumber => "NaN cannot be sent as a command argument"
  | .truthValue => "bool is not a valid command argument"
  | .unsupported got => "Unsupported type: " ++ got.title
  | .noSuchIndex i size =>
    "argument index " ++ Decimal.text i ++ " out of range (size: " ++ Decimal.text size ++ ")"
  | .noSuchMember => ""
  | .undefined => ""
  | .endless => "maximum recursion depth exceeded"
  | .unhashable got => "unhashable type: '" ++ got.name ++ "'"
  | .incomparable got =>
    "'<=' not supported between instances of '" ++ got.name ++ "' and 'int'"
  | .badCapacity size => "Buffer size must be positive: " ++ size
  | .closed => "write to closed RedisOutputStream"
  | .blocked left => "sink would block with " ++ Decimal.text left ++ " bytes unwritten"
  | .refused left => "sink accepted no data, " ++ Decimal.text left ++ " bytes unwritten"
  | .fault f => f.text
  | .unserialisable _ => "Failed to serialize command arguments"
  | .mismatch report => report

/-- Whether a failure is one of input and output or of the content of a value. Writing to memory
    has no cause for either, so a capture takes them for a mistake of its caller. -/
def isInputOutputOrContent : Failure → Bool
  | .outOfRange .. | .notANumber | .badCapacity _ | .closed | .blocked _ | .refused _ => true
  | .fault f => f.topic != .other
  | _ => false

end Failure

/-- The state after an operation that may fail half-way, and why it failed if it did. -/
abbrev Attempt (State : Type) := State × Option Failure

/-- Goes on with the state of an attempt that did not fail. -/
def Attempt.andThen {State : Type} (first : Attempt State) (next : State → Attempt State) :
    Attempt State :=
  match first with
  | (s, none) => next s
  | (s, some why) => (s, some why)

namespace Attempt

variable {State : Type}

@[simp] theorem andThen_none (s : State) (next : State → Attempt State) :
    andThen (s, none) next = next s := rfl

@[simp] theorem andThen_some (s : State) (why : Failure) (next : State → Attempt State) :
    andThen (s, some why) next = (s, some why) := rfl

end Attempt
end CommandWire
