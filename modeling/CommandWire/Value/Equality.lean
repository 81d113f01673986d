import CommandWire.Matcher.Matches

/-! Equality of values of any kind. A matcher on either side decides by matching; lists and tuples
    are compared item by item, dictionaries key by key, in any order. -/

namespace CommandWire.Value

mutual

/-- Whether two values are equal. -/
def eqv : Value → Value → Bool
  | .matcher m, b => m.matches b
  | .list xs, b =>
    match b with
    | .matcher m => m.matches (.list xs)
    | .list ys => xs.length == ys.length && eqvEach xs ys
    | _ => false
  | .tuple xs, b =>
    match b with
    | .matcher m => m.matches (.tuple xs)
    | .tuple ys => xs.length == ys.length && eqvEach xs ys
    | _ => false
  | .dict xs, b =>
    match b with
    | .matcher m => m.matches (.dict xs)
    | .dict ys => xs.length == ys.length && eqvEntries xs ys
    | _ => false
  | a, b =>
    match b with
    | .matcher m => m.matches a
    | _ => a.atomEqv b
termination_by structural x => x

/-- Whether items are equal one by one, as far as both lists go. -/
def eqvEach : List Value → List Value → Bool
  | x :: xs, y :: ys => eqv x y && eqvEach xs ys
  | _, _ => true
termination_by structural x => x

/-- Whether each entry has an equal one among the others. -/
def eqvEntries : List (Value × Value) → List (Value × Value) → Bool
  | [], _ => true
  | x :: xs, ys => eqvEntry x ys && eqvEntries xs ys
termination_by structural x => x

/-- Whether an entry has an equal one among others. -/
def eqvEntry : Value × Value → List (Value × Value) → Bool
  | (k, v), ys => ys.any fun y => eqv k y.1 && eqv v y.2
termination_by structural x => x

end

@[simp] theorem matcher_eqv (m : Matcher) (v : Value) : (Value.matcher m).eqv v = m.matches v := by
  rw [eqv]

@[simp] theorem argument_eqv (a b : Argument) :
    (Value.argument a).eqv (.argument b) = (a.raw == b.raw) := rfl

@[simp] theorem range_eqv (p q : Range) : (Value.range p).eqv (.range q) = (p == q) := rfl

end CommandWire.Value
