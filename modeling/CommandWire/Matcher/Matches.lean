import CommandWire.Value.Atom

/-! What a matcher accepts.

    A test other than a conjunction looks at requests only and accepts nothing else. It compares an
    expected value with one part of the request: an argument, the number of arguments, or the text
    of an argument. A matcher that stands as an expected value is asked instead. -/

namespace CommandWire

namespace Request

/-- The argument at the position that a value names. Only an integer names one. -/
def argumentAt? (r : Request) : Value → Option Argument
  | .int i => r.at? i
  | _ => none

end Request

mutual

/-- Whether a matcher accepts an item. -/
def Matcher.matches : Matcher → Value → Bool
  | .hasCommand command, .request _ r => command.meets (.argument r.command)
  | .hasArgumentCount count, .request _ r => count.meets (.int r.size)
  | .hasArgumentAt index expected, .request _ r =>
    match r.argumentAt? index with
    | some a => expected.meets (.argument a)
    | none => false
  | .hasArguments expected, .request _ r =>
    r.size == expected.length && Value.meetEach expected r.arguments
  | .hasArgument expected, .request _ r =>
    r.arguments.any fun a => expected.meets (.text a.text)
  | .allOf parts, item => Matcher.allMatch parts item
  | _, _ => false

/-- Whether every part of a conjunction accepts an item. -/
def Matcher.allMatch : List Matcher → Value → Bool
  | [], _ => true
  | m :: ms, item => m.matches item && Matcher.allMatch ms item

/-- Whether an expected value equals a part of a request. -/
def Value.meets : Value → Value → Bool
  | .matcher m, part => m.matches part
  | expected, part => expected.atomEqv part

/-- Whether expected values equal arguments, one by one as far as both go. -/
def Value.meetEach : List Value → List Argument → Bool
  | e :: es, a :: as => e.meets (.argument a) && Value.meetEach es as
  | _, _ => true

end

namespace Matcher

theorem allMatch_eq_all (ms : List Matcher) (item : Value) :
    allMatch ms item = ms.all (·.matches item) := by
  induction ms with
  | nil => rfl
  | cons m ms ih => rw [allMatch, ih, List.all_cons]

/-- A conjunction accepts what every part of it accepts. -/
@[simp] theorem matches_allOf (ms : List Matcher) (item : Value) :
    (allOf ms).matches item = ms.all (·.matches item) := by
  rw [Matcher.matches, allMatch_eq_all]

end Matcher
end CommandWire
