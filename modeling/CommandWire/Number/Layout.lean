import CommandWire.Number.Shortest

/-! The text of a double: its shortest digits, with a point among them or an exponent behind. -/

namespace CommandWire.Binary64

/-- How a decimal is laid out: the exponents that are written positionally, and how many digits
    another exponent has at least. -/
structure Layout where
  positionalFrom : Int
  positionalBelow : Int
  exponentDigits : Nat

/-- Numbers from 10⁻⁴ up to but not 10¹⁶ are positional; other exponents have two digits or more. -/
def layout : Layout := ⟨-4, 16, 2⟩

/-- The exponent behind `e`: its sign is always written. -/
def Layout.exponent (l : Layout) (e : Int) : List Char :=
  let ds := Decimal.natChars e.natAbs
  'e' :: (if e < 0 then '-' else '+') :: (List.replicate (l.exponentDigits - ds.length) '0' ++ ds)

/-- Lays out digits whose first one stands for a multiple of `10ᵉ`. A positional number has a point
    and a digit on both sides of it; otherwise the point is left out after a single digit. -/
def Layout.write (l : Layout) (ds : List Char) (e : Int) : List Char :=
  if l.positionalFrom ≤ e ∧ e < l.positionalBelow then
    if e < 0 then '0' :: '.' :: (List.replicate (-e - 1).toNat '0' ++ ds)
    else
      let whole := e.toNat + 1
      if ds.length ≤ whole then ds ++ List.replicate (whole - ds.length) '0' ++ ['.', '0']
      else ds.take whole ++ '.' :: ds.drop whole
  else
    match ds with
    | [d] => d :: l.exponent e
    | ds => ds.take 1 ++ '.' :: (ds.drop 1 ++ l.exponent e)

/-- The magnitude at the index of a finite double. -/
def magnitudeChars (i : Nat) : List Char :=
  if i = 0 then layout.write ['0'] 0
  else
    let (d, k) := shortest i
    let ds := Decimal.natChars d
    layout.write ds (ds.length - 1 + k)

/-- A double, as characters. -/
def chars (x : Binary64) : List Char :=
  if x.isNaN then "nan".toList
  else
    let magnitude := if x.isInfinite then "inf".toList else magnitudeChars x.index
    if x.negative then '-' :: magnitude else magnitude

/-- A double, as text. -/
def text (x : Binary64) : String := String.ofList x.chars

end CommandWire.Binary64
