import CommandWire.Matcher.Matches
import CommandWire.Value.Printed

/-! Why a matcher did not accept an item, and assertions.

    A conjunction blames its first part that does not accept the item, and says what that part asks
    for; every other test says what it found instead. -/

namespace CommandWire

/-- The texts of all arguments, in brackets. -/
def Request.quotedAll (r : Request) : List Char := bracketed (r.arguments.map (·.quoted))

/-- An item as it is, for want of anything better to say. -/
def Value.found (item : Value) : Except Failure (List Char) := do
  return "was ".toList ++ (← item.shown)

mutual

/-- What a matcher found instead. -/
def Matcher.mismatch : Matcher → Value → Except Failure (List Char)
  | .hasCommand _, .request _ r =>
    .ok ("was CommandArguments with command ".toList ++ r.command.quoted)
  | .hasArgumentCount _, .request _ r =>
    .ok ("was CommandArguments with argument count ".toList ++ Decimal.natChars r.size)
  | .hasArgumentAt index _, .request _ r => do
    let position ← index.plain
    match r.argumentAt? index with
    | some a => return "argument at index ".toList ++ position ++ " was ".toList ++ a.quoted
    | none =>
      return "index ".toList ++ position ++ " is out of bounds (size: ".toList
        ++ Decimal.natChars r.size ++ [')']
  | .hasArguments _, .request _ r =>
    .ok ("was CommandArguments with arguments ".toList ++ r.quotedAll)
  | .hasArgument _, .request _ r =>
    .ok ("was CommandArguments with arguments ".toList ++ r.quotedAll)
  | .allOf parts, item => Matcher.mismatchFirst parts item
  | _, item => item.found
termination_by structural m => m

/-- What the first part that does not accept an item asks for, and what it found instead. -/
def Matcher.mismatchFirst : List Matcher → Value → Except Failure (List Char)
  | [], item => item.found
  | m :: ms, item =>
    if m.matches item then Matcher.mismatchFirst ms item
    else do
      let asked ← m.described
      let found ← m.mismatch item
      return asked ++ ' ' :: found
termination_by structural ms => ms

end

/-- Fails with a report unless a matcher accepts an item. A reason stands on a line before. -/
def Matcher.check (m : Matcher) (item : Value) (reason : String) : Except Failure Unit :=
  if m.matches item then .ok ()
  else do
    let asked ← m.described
    let found ← m.mismatch item
    let report := "Expected: ".toList ++ asked ++ "\n     but: ".toList ++ found
    .error (.mismatch (String.ofList
      (if reason = "" then report else reason.toList ++ '\n' :: report)))

end CommandWire
