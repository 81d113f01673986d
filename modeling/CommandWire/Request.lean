import CommandWire.Argument

/-! A request: a command, fixed when it is made, and the parameters that were appended to it.
    Position 0 is the command; the parameters follow in the order in which they came. -/

namespace CommandWire

/-- A command and its parameters. -/
structure Request where
  command : Argument
  params : List Argument
  deriving DecidableEq

namespace Request

/-- A request without parameters. -/
def ofCommand (command : Argument) : Request := ⟨command, []⟩

/-- Everything that goes on the wire, the command first. -/
def arguments (r : Request) : List Argument := r.command :: r.params

/-- How many arguments there are, the command included. -/
def size (r : Request) : Nat := r.params.length + 1

/-- One more parameter, at the end. -/
def push (r : Request) (a : Argument) : Request := { r with params := r.params ++ [a] }

/-- More parameters, at the end. -/
def pushAll (r : Request) (as : List Argument) : Request := { r with params := r.params ++ as }

/-- The argument at a position that may lie outside. -/
def at? (r : Request) (i : Int) : Option Argument :=
  if 0 ≤ i then r.arguments[i.toNat]? else none

@[simp] theorem arguments_ofCommand (a : Argument) : (ofCommand a).arguments = [a] := rfl

@[simp] theorem arguments_push (r : Request) (a : Argument) :
    (r.push a).arguments = r.arguments ++ [a] := rfl

@[simp] theorem arguments_pushAll (r : Request) (as : List Argument) :
    (r.pushAll as).arguments = r.arguments ++ as := rfl

@[simp] theorem length_arguments (r : Request) : r.arguments.length = r.size := rfl

theorem at?_natCast (r : Request) (i : Nat) : r.at? i = r.arguments[i]? := by
  simp [at?]

theorem at?_eq_none_iff (r : Request) (i : Int) : r.at? i = none ↔ i < 0 ∨ r.size ≤ i := by
  unfold at?
  split
  · rw [List.getElem?_eq_none_iff, length_arguments]; omega
  · simp only [true_iff]; omega

end Request
end CommandWire
