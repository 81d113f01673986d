import CommandWire.Number.Binary64
import CommandWire.Request
import CommandWire.Range

/-! The values that a caller may hand over, of whatever kind, and the matchers that test them.
    Which of them is accepted where is decided by the operations; a value by itself is only data.

    Some of what a caller can have in hand is left out, so a statement about all values is one about
    the values below:

        arguments    the three that can be made; one of the general kind, without bytes, is none
        matchers     the six that can be made; one of the general kind, without a test, is none
        integers     the plain ones and the truth values; no kind of integer with a text, an order
                     or an equality of its own
        text         characters; no halves of a surrogate pair
        containers   trees, as they are at the time of the call; none of them holds itself

    What the general kinds answer by themselves is in `CommandWire.General`.

    Nor is there any limit from outside. An integer has its decimal text however long that is, so
    asking for a place, checking a count and describing either never fail over more than 4300
    digits; and values and matchers are nested to any depth, so no comparison, match or description
    fails because it goes too deep. Only requests that ask each other are cut off, at
    `Builder.maxDepth`, as they would never end. -/

namespace CommandWire

/-- The forms that a byte string comes in: fixed, changeable, and a view of another's bytes. -/
inductive ByteForm where | bytes | buffer | view
  deriving DecidableEq

mutual

/-- A value of any kind. A request is one object among others: it carries the number of its
    creation, and only that tells it from another with the same arguments. -/
inductive Value where
  | none
  | bool (b : Bool)
  | int (n : Int)
  | float (x : Binary64)
  | text (s : String)
  | bytes (form : ByteForm) (data : Bytes)
  | argument (a : Argument)
  | list (items : List Value)
  | tuple (items : List Value)
  | dict (entries : List (Value × Value))
  | emptyBuilder
  | range (p : Range)
  | request (number : Nat) (r : Request)
  | matcher (m : Matcher)

/-- A test of a request. What it expects may be a value of any kind. -/
inductive Matcher where
  | hasCommand (command : Value)
  | hasArgumentCount (count : Value)
  | hasArgumentAt (index expected : Value)
  | hasArguments (expected : List Value)
  | hasArgument (expected : Value)
  | allOf (parts : List Matcher)

end

/-- The kinds of values. -/
inductive Kind where
  | none | bool | int | float | text | bytes | buffer | view | list | tuple | dict
  | blob | command | keyword | builder | range | request
  | hasCommand | hasArgumentCount | hasArgumentAt | hasArguments | hasArgument | allOf
  deriving DecidableEq

/-- The kind of a matcher. -/
def Matcher.kind : Matcher → Kind
  | .hasCommand _ => .hasCommand
  | .hasArgumentCount _ => .hasArgumentCount
  | .hasArgumentAt _ _ => .hasArgumentAt
  | .hasArguments _ => .hasArguments
  | .hasArgument _ => .hasArgument
  | .allOf _ => .allOf

/-- The kind of an argument. -/
def Argument.kind : Argument → Kind
  | .blob _ => .blob
  | .command _ => .command
  | .keyword _ => .keyword

/-- The kind of a value. -/
def Value.kind : Value → Kind
  | .none => .none
  | .bool _ => .bool
  | .int _ => .int
  | .float _ => .float
  | .text _ => .text
  | .bytes .bytes _ => .bytes
  | .bytes .buffer _ => .buffer
  | .bytes .view _ => .view
  | .argument a => a.kind
  | .list _ => .list
  | .tuple _ => .tuple
  | .dict _ => .dict
  | .emptyBuilder => .builder
  | .range _ => .range
  | .request _ _ => .request
  | .matcher m => m.kind

/-- A test of the command and of one more argument together. -/
def Matcher.commandWith (command expected : Value) : Matcher :=
  .allOf [.hasCommand command, .hasArgument expected]

namespace Kind

/-- The name of a kind. -/
def name : Kind → String
  | .none => "NoneType"
  | .bool => "bool"
  | .int => "int"
  | .float => "float"
  | .text => "str"
  | .bytes => "bytes"
  | .buffer => "bytearray"
  | .view => "memoryview"
  | .list => "list"
  | .tuple => "tuple"
  | .dict => "dict"
  | .blob => "RawParam"
  | .command => "Command"
  | .keyword => "Keyword"
  | .builder => "IParams"
  | .range => "ZRangeParams"
  | .request => "CommandArguments"
  | .hasCommand => "HasCommand"
  | .hasArgumentCount => "HasArgumentCount"
  | .hasArgumentAt => "HasArgumentAt"
  | .hasArguments => "HasArguments"
  | .hasArgument => "HasArgument"
  | .allOf => "AllOf"

/-- Where a kind is defined; the kinds of plain data need no place. -/
def home : Kind → String
  | .blob => "mini_resp.args."
  | .builder | .range => "mini_resp.params."
  | .request => "mini_resp.arguments."
  | .hasCommand | .hasArgumentCount | .hasArgumentAt | .hasArguments | .hasArgument | .allOf =>
    "mini_resp.matchers."
  | _ => ""

/-- A kind as it stands in a report of an unsupported value. -/
def title (k : Kind) : String :=
  match k with
  | .command | .keyword => s!"<enum '{k.name}'>"
  | _ => s!"<class '{k.home}{k.name}'>"

end Kind
end CommandWire
