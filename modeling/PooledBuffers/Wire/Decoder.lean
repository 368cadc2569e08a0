import PooledBuffers.Stream.Inlet
import PooledBuffers.Text.Encoding

/-!
# Decoders

A decoder reads one format, fixed-width values, texts and bytes one after another, either from
memory or from a stream. Bytes are taken first and decoded then, so that the bytes of a value
that does not decode are used up.
-/

namespace PooledBuffers

open PooledBuffers.Stream (Inlet Source)

/-- Where a decoder takes its bytes from. -/
inductive Decoder where
  | memory (data : Array UInt8) (position : Nat)
  | stream (inlet : Inlet)

namespace Decoder

/-- A decoder of bytes in memory. -/
def ofMemory (data : Array UInt8) : Decoder := .memory data 0

/-- A decoder of a stream, or the rule that the configuration breaks. -/
def ofStream (source : Source) (config : Stream.Config) (pool : Pool UInt8) :
    Except Error (Decoder × Pool UInt8) := do
  let (inlet, pool) ← Inlet.ofConfig source config pool
  return (.stream inlet, pool)

def isStream : Decoder → Bool
  | memory .. => false
  | stream _ => true

/-! ## Reading -/

/-- Takes the next bytes, all of them or none. -/
def bytes (decoder : Decoder) (count : Nat) : Except Error (Array UInt8) × Decoder :=
  match decoder with
  | memory data position =>
    let available := data.size - position
    if available < count then (.error (.unexpectedEnd .buffer count available), decoder)
    else (.ok (data.extract position (position + count)), memory data (position + count))
  | stream inlet =>
    let (outcome, inlet) := inlet.take count
    (outcome, stream inlet)

/-- Takes the next byte. -/
def byte (decoder : Decoder) : Except Error UInt8 × Decoder :=
  match decoder with
  | memory data position =>
    match data[position]? with
    | some value => (.ok value, memory data (position + 1))
    | none => (.error (.unexpectedEnd .buffer 1 0), decoder)
  | stream inlet =>
    let (outcome, inlet) := inlet.takeByte
    (outcome, stream inlet)

/-- Takes bytes and decodes them. -/
def decodeNext {β : Type} (decoder : Decoder) (count : Nat)
    (decode : Array UInt8 → Except Error β) : Except Error β × Decoder :=
  match decoder.bytes count with
  | (.ok run, decoder) => (decode run, decoder)
  | (.error e, decoder) => (.error e, decoder)

/-- Reads a fixed-width value. -/
def value (τ : Type) [Layout τ] (decoder : Decoder) (order : ByteOrder) :
    Except Error τ × Decoder :=
  match Layout.checkOrder τ order with
  | .error e => (.error e, decoder)
  | .ok () => decoder.decodeNext (Layout.width τ) (Layout.read order)

/-- Reads a text of `count` bytes. -/
def text (decoder : Decoder) (encoding : TextEncoding) (count : Nat) :
    Except Error String × Decoder :=
  decoder.decodeNext count encoding.decode

/-- Reads `count` bytes as code units, an even number of bytes. -/
def units (decoder : Decoder) (count : Nat) : Except Error Utf16View × Decoder :=
  match Utf16View.checkEven count with
  | .error e => (.error e, decoder)
  | .ok () => decoder.decodeNext count Utf16View.ofBytes

/-- Reads `count` bytes of code units as a text. -/
def unitsText (decoder : Decoder) (count : Nat) : Except Error String × Decoder :=
  match decoder.units count with
  | (.ok view, decoder) => (view.toText, decoder)
  | (.error e, decoder) => (.error e, decoder)

/-! ## What only memory can do -/

/-- The refusal of a member that needs memory. -/
def notOnStream (member : String) : Error :=
  .invalidOperation s!"{member} is not available on a stream based ByteReader"

def position : Decoder → Except Error Nat
  | memory _ position => .ok position
  | stream _ => .error (notOnStream "position")

/-- Puts the cursor at a position up to the end. -/
def setPosition (decoder : Decoder) (position : Nat) : Except Error Decoder :=
  match decoder with
  | memory data _ =>
    if data.size < position then .error (.outOfRange "position" position data.size)
    else .ok (memory data position)
  | stream _ => .error (notOnStream "set_position")

/-- The number of bytes from the cursor to the end. -/
def remaining : Decoder → Except Error Nat
  | memory data position => .ok (data.size - position)
  | stream _ => .error (notOnStream "bytes_remaining")

/-! ## The end of a decoder -/

/-- Gives back the chunk of a decoder of a stream, and its source. -/
def close (decoder : Decoder) (pool : Pool UInt8) : Except Error Source × Pool UInt8 :=
  match decoder with
  | memory .. =>
    (.error (.invalidOperation "into_stream is only available on a stream based ByteReader"),
      pool)
  | stream inlet =>
    let (source, pool) := inlet.close pool
    (.ok source, pool)

instance : Borrower Decoder where
  loan
    | memory data _ => { memory := some data }
    | stream inlet => Borrower.loan inlet

instance : Describe Decoder where
  describe
    | memory data position => Text.record "ByteReader"
      [("len", describe data.size), ("position", describe position)]
    | stream inlet => Text.applied "ByteReader" (describe inlet)

end Decoder

end PooledBuffers
