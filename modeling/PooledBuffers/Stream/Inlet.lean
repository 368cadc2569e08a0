import PooledBuffers.Block
import PooledBuffers.Stream.Config
import PooledBuffers.Stream.Loan

/-!
# Inlets

An inlet reads a source through a chunk of rented memory and hands out runs of bytes up to the
chunk's length, however the source cuts them up.

* `Inlet.ensure` — reads until enough bytes are buffered; what arrived before a failure stays.
* `Inlet.take` — hands out the next bytes, all of them or none.
-/

namespace PooledBuffers.Stream

/-- A source read through a chunk of memory, which holds the bytes from `start` to `stop` that
were read and not handed out. -/
structure Inlet where
  source : Source
  chunk : Block UInt8
  start : Nat
  stop : Nat
  /-- The number of bytes handed out. -/
  consumed : Nat

namespace Inlet

/-- An inlet on a source; its chunk is rented as it is. -/
def ofValid (source : Source) (config : Config) (pool : Pool UInt8) : Inlet × Pool UInt8 :=
  let (chunk, pool) := Block.rent pool config.chunkSize false
  ({ source := source, chunk := chunk, start := 0, stop := 0, consumed := 0 }, pool)

/-- An inlet on a source, or the rule that the configuration breaks. -/
def ofConfig (source : Source) (config : Config) (pool : Pool UInt8) :
    Except Error (Inlet × Pool UInt8) := do
  config.validate
  return ofValid source config pool

/-- The length of the chunk. -/
def chunkSize (inlet : Inlet) : Nat := inlet.chunk.length

/-- The number of bytes read and not handed out. -/
def available (inlet : Inlet) : Nat := inlet.stop - inlet.start

/-- The bytes read and not handed out. -/
def buffered (inlet : Inlet) : Array UInt8 :=
  inlet.chunk.physical.extract inlet.start inlet.stop

/-- Moves the buffered bytes to the start of the chunk. -/
def compact (inlet : Inlet) : Inlet :=
  { inlet with
    chunk := inlet.chunk.edit (Storage.moveWithin · inlet.start inlet.available 0)
    start := 0
    stop := inlet.available }

/-- Reads into the rest of the chunk until `needed` bytes are buffered. -/
def refill (inlet : Inlet) (needed : Nat) : Except Error Unit × Inlet :=
  if needed ≤ inlet.available then (.ok (), inlet)
  else
    match h : inlet.source.read (inlet.chunkSize - inlet.stop) with
    | (.ok [], source) =>
      (.error (.unexpectedEnd .stream needed inlet.available), { inlet with source := source })
    | (.ok (byte :: rest), source) =>
      have := Source.weight_lt_of_read h (by simp)
      let run := (byte :: rest).toArray
      refill
        { inlet with
          source := source
          chunk := inlet.chunk.edit (Storage.overwrite · inlet.stop run)
          stop := inlet.stop + run.size }
        needed
    | (.error fault, source) =>
      have := Source.weight_lt_of_read h (by simp)
      if fault.kind = .interrupted then refill { inlet with source := source } needed
      else (.error (.io "stream read failed" fault), { inlet with source := source })
termination_by inlet.source.weight

/-- Buffers at least `needed` bytes. The source is called only while there are too few, and the
chunk is compacted first if its rest is too short for them. -/
def ensure (inlet : Inlet) (needed : Nat) : Except Error Unit × Inlet :=
  if needed ≤ inlet.available then (.ok (), inlet)
  else if inlet.chunkSize < needed then
    (.error (.capacityExceeded needed inlet.chunkSize), inlet)
  else if inlet.chunkSize - inlet.stop < needed - inlet.available then
    inlet.compact.refill needed
  else inlet.refill needed

/-- Hands out the next `count` bytes. -/
def take (inlet : Inlet) (count : Nat) : Except Error (Array UInt8) × Inlet :=
  match inlet.ensure count with
  | (.ok (), inlet) =>
    (.ok (inlet.chunk.physical.extract inlet.start (inlet.start + count)),
      { inlet with start := inlet.start + count, consumed := inlet.consumed + count })
  | (.error e, inlet) => (.error e, inlet)

/-- Hands out the next byte. -/
def takeByte (inlet : Inlet) : Except Error UInt8 × Inlet :=
  match inlet.ensure 1 with
  | (.ok (), inlet) =>
    (.ok (inlet.chunk.physical.getD inlet.start 0),
      { inlet with start := inlet.start + 1, consumed := inlet.consumed + 1 })
  | (.error e, inlet) => (.error e, inlet)

/-- Gives the chunk back and answers the source; bytes still buffered are lost. -/
def close (inlet : Inlet) (pool : Pool UInt8) : Source × Pool UInt8 :=
  (inlet.source, (inlet.chunk.dispose pool).2)

instance : Borrower Inlet where
  loan inlet := { source := some inlet.source }

instance : Describe Inlet where
  describe inlet := Text.record "StreamChunkReader"
    [("chunk_size", describe inlet.chunkSize), ("available", describe inlet.available),
      ("consumed", describe inlet.consumed)]

end Inlet

end PooledBuffers.Stream
