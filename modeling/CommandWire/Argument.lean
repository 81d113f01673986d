import CommandWire.Text.Utf8

/-! Arguments: whatever stands for a byte string on the wire. A command's name and a keyword are
    arguments like any other, and two arguments are the same when their bytes are. -/

namespace CommandWire

/-- The commands. -/
inductive Command where | ping | echo | get | set | zadd | zrange
  deriving DecidableEq

/-- The fixed words among a command's parameters. -/
inductive Keyword where | byScore | byLex | rev | limit | nx | ex
  deriving DecidableEq

namespace Command

/-- Every command, in order. -/
def all : List Command := [.ping, .echo, .get, .set, .zadd, .zrange]

/-- A command as it is written. -/
def name : Command → String
  | .ping => "PING"
  | .echo => "ECHO"
  | .get => "GET"
  | .set => "SET"
  | .zadd => "ZADD"
  | .zrange => "ZRANGE"

end Command

namespace Keyword

/-- Every keyword, in order. -/
def all : List Keyword := [.byScore, .byLex, .rev, .limit, .nx, .ex]

/-- A keyword as it is written. -/
def name : Keyword → String
  | .byScore => "BYSCORE"
  | .byLex => "BYLEX"
  | .rev => "REV"
  | .limit => "LIMIT"
  | .nx => "NX"
  | .ex => "EX"

end Keyword

/-- An argument of a command. -/
inductive Argument where
  | blob (data : Bytes)
  | command (c : Command)
  | keyword (k : Keyword)
  deriving DecidableEq

namespace Argument

/-- The bytes that go on the wire. -/
def raw : Argument → Bytes
  | .blob data => data
  | .command c => ascii c.name
  | .keyword k => ascii k.name

/-- Two arguments are the same when their bytes are. -/
def eqv (a b : Argument) : Bool := a.raw == b.raw

/-- The bytes of an argument, read as text. -/
def text (a : Argument) : String := Utf8.decode a.raw

end Argument
end CommandWire
