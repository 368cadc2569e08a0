import PooledBuffers.Stream.Outlet
import PooledBuffers.Text.Encoding
import PooledBuffers.Writer.Typed

/-!
# Encoders

An encoder writes one format, fixed-width values, texts and bytes one after another, either into
growing memory or to a stream. Both carriers get the same bytes; what only memory can do is
refused on a stream.
-/

namespace PooledBuffers

open PooledBuffers.Stream (Outlet Sink)

/-- Where an encoder puts its bytes. -/
inductive Encoder where
  | memory (writer : Writer UInt8)
  | stream (outlet : Outlet)

namespace Encoder

/-- The least first growth of an encoder on the caller's memory. -/
def defaultMinGrow : Nat := 512

/-- An encoder on memory lent by the caller. -/
def onMemory (cells : Array UInt8) : Encoder :=
  .memory ((Writer.onMemory cells).withMinGrow defaultMinGrow)

/-- An encoder on rented memory. -/
def withCapacity (pool : Pool UInt8) (length : Nat) : Encoder × Pool UInt8 :=
  let (writer, pool) := Writer.withCapacity pool length
  (.memory writer, pool)

/-- An encoder to a stream, or the rule that the configuration breaks. -/
def toStream (sink : Sink) (config : Stream.Config) (pool : Pool UInt8) :
    Except Error (Encoder × Pool UInt8) := do
  let (outlet, pool) ← Outlet.ofConfig sink config pool
  return (.stream outlet, pool)

def isStream : Encoder → Bool
  | memory _ => false
  | stream _ => true

/-! ## Writing -/

/-- Writes a run of bytes. -/
def bytes (encoder : Encoder) (run : Array UInt8) (pool : Pool UInt8) :
    Except Error Unit × Encoder × Pool UInt8 :=
  match encoder with
  | memory writer =>
    let (writer, pool) := writer.appendRun run pool
    (.ok (), memory writer, pool)
  | stream outlet =>
    let (outcome, outlet, pool) := outlet.write run pool
    (outcome, stream outlet, pool)

/-- Writes one byte. -/
def byte (encoder : Encoder) (value : UInt8) (pool : Pool UInt8) :
    Except Error Unit × Encoder × Pool UInt8 :=
  match encoder with
  | memory writer =>
    let (writer, pool) := writer.append value pool
    (.ok (), memory writer, pool)
  | stream outlet =>
    let (outcome, outlet, pool) := outlet.add value pool
    (outcome, stream outlet, pool)

/-- Writes bytes that have to stay together in memory. -/
def together (encoder : Encoder) (run : Array UInt8) (pool : Pool UInt8) :
    Except Error Unit × Encoder × Pool UInt8 :=
  match encoder with
  | memory writer =>
    let (_, writer, pool) := writer.acquire run.size true run pool
    (.ok (), memory writer, pool)
  | stream outlet =>
    let (outcome, outlet, pool) := outlet.acquire run.size run pool
    (outcome.map fun _ => (), stream outlet, pool)

/-- Writes a fixed-width value and answers its width. -/
def value {τ : Type} [Layout τ] (encoder : Encoder) (order : ByteOrder) (value : τ)
    (pool : Pool UInt8) : Except Error Nat × Encoder × Pool UInt8 :=
  match Layout.checkOrder τ order with
  | .error e => (.error e, encoder, pool)
  | .ok () =>
    let (outcome, encoder, pool) := encoder.together (Layout.bytes order value) pool
    (outcome.map fun _ => Layout.width τ, encoder, pool)

/-- An encoder and its pool as a sink for pieces. -/
def sink (state : Encoder × Pool UInt8) (piece : Array UInt8) :
    Except Error Unit × Encoder × Pool UInt8 :=
  state.1.bytes piece state.2

/-- Writes a text and answers the number of bytes it took. -/
def text (encoder : Encoder) (encoding : TextEncoding) (text : String) (pool : Pool UInt8) :
    Except Error Nat × Encoder × Pool UInt8 :=
  encoding.encodeInto sink (encoder, pool) text

/-- Writes code units, least significant byte first, and answers the number of bytes. -/
def units (encoder : Encoder) (units : List UInt16) (pool : Pool UInt8) :
    Except Error Nat × Encoder × Pool UInt8 :=
  unitsInto sink (encoder, pool) units

/-- Sends what a stream's chunk holds; memory needs no flush. -/
def flush (encoder : Encoder) (pool : Pool UInt8) : Except Error Unit × Encoder × Pool UInt8 :=
  match encoder with
  | memory writer => (.ok (), memory writer, pool)
  | stream outlet =>
    let (outcome, outlet, pool) := outlet.flush pool
    (outcome, stream outlet, pool)

/-! ## What only memory can do -/

/-- The refusal of a member that needs memory. -/
def notOnStream (member : String) : Error :=
  .invalidOperation s!"{member} is not available on a stream based ByteWriter"

/-- The writer of an encoder on memory, or the refusal of the member that needs it. -/
def writer (encoder : Encoder) (member : String) : Except Error (Writer UInt8) :=
  match encoder with
  | memory writer => .ok writer
  | stream _ => .error (notOnStream member)

/-- Sets every byte of the memory. -/
def fill (encoder : Encoder) (value : UInt8) : Except Error Encoder := do
  return memory ((← encoder.writer "fill").fill value)

/-- The bytes before the cursor. -/
def written (encoder : Encoder) : Except Error (Array UInt8) := do
  return (← encoder.writer "written").written

def position (encoder : Encoder) : Except Error Nat := do
  return (← encoder.writer "position").position

def setPosition (encoder : Encoder) (position : Nat) : Except Error Encoder := do
  return memory (← (← encoder.writer "set_position").setPosition position)

/-! ## The end of an encoder -/

/-- Takes the writer out; an encoder to a stream is abandoned instead. -/
def intoWriter (encoder : Encoder) (pool : Pool UInt8) :
    Except Error (Writer UInt8) × Option Sink × Pool UInt8 :=
  match encoder with
  | memory writer => (.ok writer, none, pool)
  | stream outlet =>
    let (sink, pool) := outlet.abandon pool
    (.error (notOnStream "into_buffer_writer"), some sink, pool)

/-- Ends an encoder to a stream with a last flush; one on memory has no stream to give. -/
def intoSink (encoder : Encoder) (pool : Pool UInt8) :
    Except Error Unit × Loan × Pool UInt8 :=
  match encoder with
  | memory writer =>
    let (writer, pool) := writer.dispose pool
    (.error (.invalidOperation "into_stream is only available on a stream based ByteWriter"),
      { memory := writer.caller }, pool)
  | stream outlet =>
    let (outcome, sink, pool) := outlet.close pool
    (outcome, { sink := some sink }, pool)

/-- Ends an encoder without a word about failures. -/
def abandon (encoder : Encoder) (pool : Pool UInt8) : Loan × Pool UInt8 :=
  match encoder with
  | memory writer =>
    let (writer, pool) := writer.dispose pool
    ({ memory := writer.caller }, pool)
  | stream outlet =>
    let (sink, pool) := outlet.abandon pool
    ({ sink := some sink }, pool)

instance : Borrower Encoder where
  loan
    | memory writer => { memory := writer.caller }
    | stream outlet => Borrower.loan outlet

instance : Describe Encoder where
  describe
    | memory writer => Text.applied "ByteWriter" (describe writer)
    | stream outlet => Text.applied "ByteWriter" (describe outlet)

end Encoder

end PooledBuffers
