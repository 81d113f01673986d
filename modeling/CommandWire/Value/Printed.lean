import CommandWire.Failure
import CommandWire.Number.Layout
import CommandWire.Text.Quoted

/-! Values and matchers in words.

    A value is shown so that a reader can tell its kind; a matcher is shown as its description, and
    describing one fails where it expects an argument and was made with something else. -/

namespace CommandWire

/-- Texts joined by a separator. -/
def joined (separator : List Char) : List (List Char) → List Char
  | [] => []
  | [x] => x
  | x :: xs => x ++ separator ++ joined separator xs

/-- A list in brackets. -/
def bracketed (items : List (List Char)) : List Char := '[' :: (joined [',', ' '] items ++ [']'])

/-- A truth value, as it is shown. -/
def boolChars (b : Bool) : List Char := if b then "True".toList else "False".toList

namespace Argument

/-- An argument, as it is shown: an unnamed one by its text. -/
def shown : Argument → List Char
  | .blob data => "RawParam(".toList ++ Quoted.text (Utf8.decode data).toList ++ [')']
  | .command c => "Command.".toList ++ c.name.toList
  | .keyword k => "Keyword.".toList ++ k.name.toList

/-- The text of an argument in quotes. -/
def quoted (a : Argument) : List Char := Quoted.text a.text.toList

end Argument

/-- A request, as it is shown: the texts of its arguments, the command first. -/
def Request.shown (r : Request) : List Char :=
  "CommandArguments(".toList ++ bracketed (r.arguments.map (·.quoted)) ++ [')']

/-- A range, as it is shown. -/
def Range.shown (p : Range) : List Char :=
  "ZRangeParams(by=".toList
    ++ (match p.mode.keyword? with
        | none => "None".toList
        | some k => (Argument.keyword k).shown)
    ++ ", min=".toList ++ (Argument.blob p.min).shown
    ++ ", max=".toList ++ (Argument.blob p.max).shown
    ++ ", rev=".toList ++ boolChars p.reversed
    ++ ", limit=".toList
    ++ (match p.window with
        | none => "None".toList
        | some (offset, count) =>
          '(' :: (Decimal.intChars offset.toInt ++ ", ".toList
            ++ Decimal.intChars count.toInt ++ [')']))
    ++ [')']

/-- The argument that a value is expected to be. -/
def Value.toArgument : Value → Except Failure Argument
  | .argument a => .ok a
  | _ => .error .noSuchMember

/-- A tuple of one item keeps its comma. -/
def tupled : List (List Char) → List Char
  | [x] => '(' :: (x ++ [',', ')'])
  | xs => '(' :: (joined [',', ' '] xs ++ [')'])

/-- A value inside a sentence: text and names stand without quotes, all else as it is shown. -/
def Value.plainOr (shown : Except Failure (List Char)) : Value → Except Failure (List Char)
  | .text s => .ok s.toList
  | .argument (.command c) => .ok c.name.toList
  | .argument (.keyword k) => .ok k.name.toList
  | _ => shown

mutual

/-- A value, as it is shown. -/
def Value.shown : Value → Except Failure (List Char)
  | .none => .ok "None".toList
  | .bool b => .ok (boolChars b)
  | .int n => .ok (Decimal.intChars n)
  | .float x => .ok x.chars
  | .text s => .ok (Quoted.text s.toList)
  | .bytes .bytes data => .ok (Quoted.bytes data)
  | .bytes .buffer data => .ok ("bytearray(".toList ++ Quoted.buffer data ++ [')'])
  | .bytes .view _ => .ok "<memory>".toList
  | .argument a => .ok a.shown
  | .list items => do return bracketed (← Value.shownEach items)
  | .tuple items => do return tupled (← Value.shownEach items)
  | .dict entries => do
    return '\x7b' :: (joined [',', ' '] (← Value.shownEntries entries) ++ ['\x7d'])
  | .emptyBuilder => .ok "<IParams object>".toList
  | .range p => .ok p.shown
  | .request _ r => .ok r.shown
  | .matcher m => do return '<' :: ((← m.described) ++ ['>'])

/-- Every item of a list, as it is shown. -/
def Value.shownEach : List Value → Except Failure (List (List Char))
  | [] => .ok []
  | v :: vs => do
    let first ← v.shown
    let others ← Value.shownEach vs
    return first :: others

/-- Every entry of a dictionary, as it is shown. -/
def Value.shownEntries : List (Value × Value) → Except Failure (List (List Char))
  | [] => .ok []
  | e :: es => do
    let first ← Value.shownEntry e
    let others ← Value.shownEntries es
    return first :: others

/-- An entry of a dictionary, as it is shown. -/
def Value.shownEntry : Value × Value → Except Failure (List Char)
  | (k, v) => do
    let key ← k.shown
    let value ← v.shown
    return key ++ ": ".toList ++ value

/-- What a matcher asks for. -/
def Matcher.described : Matcher → Except Failure (List Char)
  | .hasCommand command => do
    return "CommandArguments with command ".toList ++ (← command.toArgument).quoted
  | .hasArgumentCount count => do
    return "CommandArguments with argument count ".toList ++ (← count.plainOr count.shown)
  | .hasArgumentAt index expected => do
    let position ← index.plainOr index.shown
    let a ← expected.toArgument
    return "CommandArguments with argument at index ".toList ++ position
      ++ " equal to ".toList ++ a.quoted
  | .hasArguments expected => do
    let as ← expected.mapM Value.toArgument
    return "CommandArguments with arguments ".toList ++ bracketed (as.map (·.quoted))
  | .hasArgument expected => do
    return "CommandArguments containing argument ".toList ++ (← expected.shown)
  | .allOf parts => do return joined " and ".toList (← Matcher.describedEach parts)

/-- What every part of a conjunction asks for, in parentheses. -/
def Matcher.describedEach : List Matcher → Except Failure (List (List Char))
  | [] => .ok []
  | m :: ms => do
    let first ← m.described
    let others ← Matcher.describedEach ms
    return ('(' :: (first ++ [')'])) :: others

end

/-- A value inside a sentence. -/
def Value.plain (v : Value) : Except Failure (List Char) := v.plainOr v.shown

end CommandWire
