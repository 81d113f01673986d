import CommandWire.Conversion

/-! Making a request from values and appending to it. Nothing that was appended ever changes or
    goes away. -/

namespace CommandWire

/-- What can be asked to add arguments to a request: a range, a general builder, which leaves open
    what it adds, and another request, which asks the first one in turn. -/
inductive Builder where
  | range (p : Range)
  | general
  | request (r : Request)

/-- The builder that a value is. -/
def Value.builder? : Value → Option Builder
  | .range p => some (.range p)
  | .emptyBuilder => some .general
  | .request _ r => some (.request r)
  | _ => Option.none

namespace Builder

/-- How deep requests may ask each other before that counts as endless. The number stands for the
    limit that is set from outside on how deep calls may be nested, and is no rule of requests: they
    ask each other without end, whatever it is. Values and matchers meet no such limit here. -/
def maxDepth : Nat := 1000

/-- Adds what a builder builds to a request, which stays as it is on a failure. -/
def addTo : Builder → Nat → Request → Attempt Request
  | .range p, _, r => (r.pushAll p.arguments, none)
  | .general, _, r => (r, some .undefined)
  | .request _, 0, r => (r, some .endless)
  | .request q, depth + 1, r => (r, ((Builder.request r).addTo depth q).2)
termination_by structural _ depth => depth

end Builder

namespace Request

/-- A request for a command, which has to be an argument already. -/
def ofValue : Value → Except Failure Request
  | .argument a => .ok (ofCommand a)
  | v => .error (.mistyped .command v.kind)

/-- Appends an argument as it is. -/
def append (r : Request) : Value → Attempt Request
  | .argument a => (r.push a, none)
  | v => (r, some (.mistyped .param v.kind))

/-- Appends a value of any kind that can stand as an argument. -/
def add (r : Request) (v : Value) : Attempt Request :=
  match Argument.ofValue v with
  | .ok a => (r.push a, none)
  | .error why => (r, some why)

/-- Appends values in turn, up to the first that is refused; what came before it stays. -/
def addAll (r : Request) : List Value → Attempt Request
  | [] => (r, none)
  | v :: vs => (r.add v).andThen (addAll · vs)

/-- Appends what a builder builds; a value that is no builder is refused. -/
def addBuilt (r : Request) (v : Value) : Attempt Request :=
  match v.builder? with
  | some b => b.addTo Builder.maxDepth r
  | none => (r, some .noSuchMember)

/-- A change of a request. -/
inductive Edit where
  | append (v : Value)
  | add (v : Value)
  | addAll (vs : List Value)
  | addBuilt (v : Value)

/-- One change, which may fail. -/
def edit (r : Request) : Edit → Attempt Request
  | .append v => r.append v
  | .add v => r.add v
  | .addAll vs => r.addAll vs
  | .addBuilt v => r.addBuilt v

/-- Changes one after another; a failure does not stop the later ones. -/
def editAll (r : Request) (edits : List Edit) : Request := edits.foldl (fun q e => (q.edit e).1) r

/-- The argument at a position given by a value. -/
def get (r : Request) : Value → Except Failure Argument
  | .int i =>
    match r.at? i with
    | some a => .ok a
    | none => .error (.noSuchIndex i r.size)
  | v => .error (.mistyped .index v.kind)

end Request

end CommandWire
