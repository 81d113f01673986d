import CommandWire.Matcher.Report

/-! What a general kind of argument, builder or matcher answers by itself. It leaves its operations
    to the special kinds, all but one: any matcher can say what it found. -/

namespace CommandWire

/-- The operations of the general kinds. -/
inductive GeneralOperation where | raw | addBuilt | matches | describe | mismatch
  deriving DecidableEq

/-- An operation on an item, where no special kind defines it. -/
def GeneralOperation.perform : GeneralOperation → Value → Except Failure (List Char)
  | .mismatch, item => item.found
  | _, _ => .error .undefined

end CommandWire
