import PooledBuffers.Error

/-!
# UTF-8

* `Utf8.encode` — the bytes of a text.
* `Utf8.decode` — the text of some bytes, or the first place where they are ill-formed. It reads
  one byte at a time and keeps what the sequence it is in still needs, so that an ill-formed
  sequence is reported with the length of its longest acceptable beginning.
-/

namespace PooledBuffers.Utf8

/-- The bytes of a text. -/
def encode (text : String) : List UInt8 :=
  text.toList.flatMap String.utf8EncodeChar

/-- A sequence that is under way: where it starts, how many bytes it has so far and still needs,
the range that the next of them has to be in, and the bits collected. -/
structure Sequence where
  start : Nat
  seen : Nat
  needed : Nat
  low : Nat
  high : Nat
  payload : Nat
  deriving DecidableEq, Repr

/-- The sequence that a lead byte above 127 opens. The range of the second byte keeps out longer
spellings of short sequences, surrogates, and numbers past the last code point. -/
def Sequence.opened? (start : Nat) (lead : UInt8) : Option Sequence :=
  let n := lead.toNat
  if n < 0xC2 then none
  else if n < 0xE0 then some ⟨start, 1, 1, 0x80, 0xBF, n - 0xC0⟩
  else if n < 0xF0 then
    some ⟨start, 1, 2, if n = 0xE0 then 0xA0 else 0x80, if n = 0xED then 0x9F else 0xBF, n - 0xE0⟩
  else if n < 0xF5 then
    some ⟨start, 1, 3, if n = 0xF0 then 0x90 else 0x80, if n = 0xF4 then 0x8F else 0xBF, n - 0xF0⟩
  else none

/-- The sequence with one more byte, if it is in range. -/
def Sequence.extended? (sequence : Sequence) (byte : UInt8) : Option Sequence :=
  let n := byte.toNat
  if sequence.low ≤ n ∧ n ≤ sequence.high then
    some
      { sequence with
        seen := sequence.seen + 1
        needed := sequence.needed - 1
        low := 0x80
        high := 0xBF
        payload := sequence.payload * 64 + (n - 0x80) }
  else none

/-- Reads the bytes from `position` on, with the sequence under way and the characters before it,
the last one first. -/
def decodeFrom (position : Nat) (pending : Option Sequence) (done : List Char) :
    List UInt8 → Except Utf8Fault (List Char)
  | [] =>
    match pending with
    | none => .ok done.reverse
    | some sequence => .error ⟨sequence.start, none⟩
  | byte :: rest =>
    match pending with
    | none =>
      if byte < 0x80 then
        decodeFrom (position + 1) none (Char.ofNat byte.toNat :: done) rest
      else
        match Sequence.opened? position byte with
        | some sequence => decodeFrom (position + 1) (some sequence) done rest
        | none => .error ⟨position, some 1⟩
    | some sequence =>
      match sequence.extended? byte with
      | some longer =>
        if longer.needed = 0 then
          decodeFrom (position + 1) none (Char.ofNat longer.payload :: done) rest
        else decodeFrom (position + 1) (some longer) done rest
      | none => .error ⟨sequence.start, some sequence.seen⟩

/-- The text of some bytes, or the first place where they are not UTF-8. -/
def decode (bytes : List UInt8) : Except Utf8Fault String :=
  (decodeFrom 0 none [] bytes).map String.ofList

end PooledBuffers.Utf8
