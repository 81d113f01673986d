import CommandWire.Argument
import CommandWire.Number.Decimal

/-! The range that a sorted-set query asks for: two bounds, what they are bounds of, the direction,
    and a window on the result. On the wire it reads

        min max [BYSCORE | BYLEX] [REV] [LIMIT offset count] -/

namespace CommandWire

/-- What the bounds of a range are bounds of. -/
inductive Mode where | index | score | lex
  deriving DecidableEq

/-- The keyword that names a mode; positions need none. -/
def Mode.keyword? : Mode → Option Keyword
  | .index => none
  | .score => some .byScore
  | .lex => some .byLex

/-- A range. The window, where there is one, is an offset and a count. -/
structure Range where
  mode : Mode
  min : Bytes
  max : Bytes
  reversed : Bool
  window : Option (Int64 × Int64)
  deriving DecidableEq

namespace Range

/-- A range that runs forward and has no window. -/
def ofBounds (mode : Mode) (min max : Bytes) : Range := ⟨mode, min, max, false, none⟩

/-- A 64-bit integer as an argument. -/
def number (n : Int64) : Argument := .blob (Decimal.intBytes n.toInt)

/-- The arguments that a range adds to a command. -/
def arguments (p : Range) : List Argument :=
  [.blob p.min, .blob p.max]
    ++ (p.mode.keyword?.map .keyword).toList
    ++ (if p.reversed then [.keyword .rev] else [])
    ++ match p.window with
       | none => []
       | some (offset, count) => [.keyword .limit, number offset, number count]

/-- Two bounds, and as many more as the keywords ask for. -/
theorem length_arguments (p : Range) :
    p.arguments.length = 2 + (if p.mode = .index then 0 else 1) + (if p.reversed then 1 else 0)
      + (if p.window = none then 0 else 3) := by
  obtain ⟨mode, min, max, reversed, window⟩ := p
  cases mode <;> cases reversed <;> cases window <;> simp [arguments, Mode.keyword?]

end Range
end CommandWire
