import CommandWire.Request
import CommandWire.Failure

/-! A request as it goes on the wire: its number of arguments, then every argument behind its
    length in bytes.

        *N CRLF  ( $length CRLF  bytes CRLF ) × N -/

namespace CommandWire.Wire

/-- The mark in front of the number of arguments: `*`. -/
def arrayMark : UInt8 := 42

/-- The mark in front of the length of an argument: `$`. -/
def bulkMark : UInt8 := 36

/-- The line that opens a request of so many arguments. -/
def header (count : Int) : Bytes := arrayMark :: (Decimal.intBytes count ++ crlf)

/-- One argument. -/
def bulk (raw : Bytes) : Bytes := bulkMark :: (Decimal.natBytes raw.length ++ crlf ++ raw ++ crlf)

/-- One argument given by a value, which may be missing. -/
def bulkOfValue : Value → Except Failure Bytes
  | .none => .error (.missing .bulk)
  | .bytes _ data => .ok (bulk data)
  | _ => .error .noSuchMember

/-- The pieces in which a request is handed on: its header, then its arguments one by one. -/
def chunks (r : Request) : List Bytes := header r.size :: r.arguments.map (bulk ·.raw)

/-- A whole request. -/
def encode (r : Request) : Bytes := (chunks r).flatten

theorem encode_eq (r : Request) :
    encode r = header r.size ++ r.arguments.flatMap (bulk ·.raw) := by
  simp [encode, chunks, List.flatMap]

theorem length_chunks (r : Request) : (chunks r).length = r.size + 1 := by
  simp [chunks]

/-- Every piece opens with a mark. -/
theorem ne_nil_of_mem_chunks {r : Request} {piece : Bytes} (h : piece ∈ chunks r) :
    piece ≠ [] := by
  rcases List.mem_cons.mp h with rfl | h
  · exact List.cons_ne_nil _ _
  · obtain ⟨e, -, rfl⟩ := List.mem_map.mp h
    exact List.cons_ne_nil _ _

end CommandWire.Wire
