import CommandWire.Bytes

/-! UTF-8, both ways.

    Encoding writes every character on its own. Decoding is a machine that reads one byte at a
    time and never fails: where the bytes cannot continue a character, the longest part that could
    have begun one becomes a single U+FFFD, and the byte that broke it starts afresh.

        start ──lead──▶ within ──tail──▶ … ──last tail──▶ start   (emits the character)
                          │ any other byte: emits U+FFFD, then reads the byte from start -/

namespace CommandWire.Utf8

/-- The bytes of a text. -/
def encode (s : String) : Bytes := s.toList.flatMap String.utf8EncodeChar

@[simp] theorem encode_empty : encode "" = [] := rfl

@[simp] theorem encode_append (s t : String) : encode (s ++ t) = encode s ++ encode t := by
  simp [encode]

/-- What stands for damaged bytes. -/
def replacement : Char := '\uFFFD'

/-- Where the decoder stands between two bytes: between characters, or inside one whose next byte
    lies in `low … high`, with `owed` more to follow it and the bits read so far in `code`. -/
inductive Pending where
  | start
  | within (low high : UInt8) (owed code : Nat)
  deriving DecidableEq

/-- A byte read between characters. -/
def lead (b : UInt8) : List Char × Pending :=
  if b ≤ 0x7F then ([Char.ofNat b.toNat], .start)
  else if 0xC2 ≤ b ∧ b ≤ 0xDF then ([], .within 0x80 0xBF 0 (b.toNat % 32))
  else if b = 0xE0 then ([], .within 0xA0 0xBF 1 0)
  else if b = 0xED then ([], .within 0x80 0x9F 1 13)
  else if 0xE1 ≤ b ∧ b ≤ 0xEF then ([], .within 0x80 0xBF 1 (b.toNat % 16))
  else if b = 0xF0 then ([], .within 0x90 0xBF 2 0)
  else if 0xF1 ≤ b ∧ b ≤ 0xF3 then ([], .within 0x80 0xBF 2 (b.toNat % 8))
  else if b = 0xF4 then ([], .within 0x80 0x8F 2 4)
  else ([replacement], .start)

/-- One byte: the characters it completes and where the decoder stands after it. -/
def step : Pending → UInt8 → List Char × Pending
  | .start, b => lead b
  | .within low high owed code, b =>
    if low ≤ b ∧ b ≤ high then
      match owed with
      | 0 => ([Char.ofNat (code * 64 + b.toNat % 64)], .start)
      | more + 1 => ([], .within 0x80 0xBF more (code * 64 + b.toNat % 64))
    else (replacement :: (lead b).1, (lead b).2)

/-- What is left to write when the bytes end. -/
def Pending.finish : Pending → List Char
  | .start => []
  | .within .. => [replacement]

/-- The characters of the bytes that follow a state, to their end. -/
def decodeFrom : Pending → Bytes → List Char
  | p, [] => p.finish
  | p, b :: rest => (step p b).1 ++ decodeFrom (step p b).2 rest

@[simp] theorem decodeFrom_nil (p : Pending) : decodeFrom p [] = p.finish := rfl

@[simp] theorem decodeFrom_cons (p : Pending) (b : UInt8) (rest : Bytes) :
    decodeFrom p (b :: rest) = (step p b).1 ++ decodeFrom (step p b).2 rest := rfl

/-- The text of a byte string. -/
def decode (data : Bytes) : String := String.ofList (decodeFrom .start data)

end CommandWire.Utf8
