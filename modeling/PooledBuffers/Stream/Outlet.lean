import PooledBuffers.Stream.Config
import PooledBuffers.Stream.Loan
import PooledBuffers.Writer.Basic

/-!
# Outlets

An outlet gathers bytes in a chunk of rented memory and sends the chunk to a sink when the next
bytes would not fit. Runs longer than the chunk go straight to the sink.

* `Outlet.flush` — sends the chunk; after a failure it keeps exactly the bytes not accepted.
* `Outlet.write`, `Outlet.add`, `Outlet.acquire` — add bytes, with a flush before them if needed.
* `Outlet.close`, `Outlet.abandon` — the end of an outlet, with its sink and its memory given back.
-/

namespace PooledBuffers.Stream

/-- A sink written to through a chunk of memory. -/
structure Outlet where
  sink : Sink
  chunk : Writer UInt8
  chunkSize : Nat
  /-- The number of bytes counted as sent. -/
  flushed : Nat

namespace Outlet

/-- An outlet on a sink. -/
def ofValid (sink : Sink) (config : Config) (pool : Pool UInt8) : Outlet × Pool UInt8 :=
  let (chunk, pool) := Writer.withCapacity pool config.chunkSize
  ({ sink := sink, chunk := chunk, chunkSize := config.chunkSize, flushed := 0 }, pool)

/-- An outlet on a sink, or the rule that the configuration breaks. -/
def ofConfig (sink : Sink) (config : Config) (pool : Pool UInt8) :
    Except Error (Outlet × Pool UInt8) := do
  config.validate
  return ofValid sink config pool

/-- The number of bytes gathered and not sent. -/
def buffered (outlet : Outlet) : Nat := outlet.chunk.position

/-- The number of bytes counted as sent, and those gathered. -/
def bytesWritten (outlet : Outlet) : Nat := outlet.flushed + outlet.chunk.position

/-- Whether `addition` more bytes would not fit into the chunk. -/
def needsFlushing (outlet : Outlet) (addition : Nat) : Bool :=
  outlet.chunkSize < Size.add addition outlet.chunk.position

/-- What is reported when a sink accepts nothing of a chunk. -/
def nothingAccepted : IoFault := ⟨.writeZero, some "stream accepted no bytes"⟩

/-- What is reported when a sink accepts nothing of a run that bypasses the chunk. -/
def wholeRunFailed : IoFault := ⟨.writeZero, some "failed to write whole buffer"⟩

/-- Removes the first `sent` bytes from the chunk and counts them as sent. -/
def drain (outlet : Outlet) (sent : Nat) (pool : Pool UInt8) :
    Except Error Unit × Outlet × Pool UInt8 :=
  if sent = 0 then (.ok (), outlet, pool)
  else
    let remaining := outlet.chunk.position - sent
    match outlet.chunk.moveWithin sent remaining 0 false pool with
    | .error e => (.error e, outlet, pool)
    | .ok (chunk, pool) =>
      match chunk.setPosition remaining with
      | .error e => (.error e, { outlet with chunk := chunk }, pool)
      | .ok chunk =>
        (.ok (), { outlet with chunk := chunk, flushed := outlet.flushed + sent }, pool)

/-- Sends the bytes gathered and has the sink hand them on. An empty chunk does not touch the
sink. -/
def flush (outlet : Outlet) (pool : Pool UInt8) : Except Error Unit × Outlet × Pool UInt8 :=
  let buffered := outlet.chunk.position
  if buffered = 0 then (.ok (), outlet, pool)
  else
    match outlet.sink.send outlet.chunk.written nothingAccepted 0 with
    | (sent, .error fault, sink) =>
      match { outlet with sink := sink }.drain sent pool with
      | (.ok (), outlet, pool) => (.error (.io "stream write failed" fault), outlet, pool)
      | (.error e, outlet, pool) => (.error e, outlet, pool)
    | (_, .ok (), sink) =>
      match sink.flush with
      | (outcome, sink) =>
        let outlet :=
          { outlet with
            sink := sink
            chunk := outlet.chunk.reset
            flushed := outlet.flushed + buffered }
        match outcome with
        | .ok () => (.ok (), outlet, pool)
        | .error fault => (.error (.io "stream flush failed" fault), outlet, pool)

/-- Flushes if `addition` more bytes would not fit. -/
def makeRoom (outlet : Outlet) (addition : Nat) (pool : Pool UInt8) :
    Except Error Unit × Outlet × Pool UInt8 :=
  if outlet.needsFlushing addition then outlet.flush pool else (.ok (), outlet, pool)

/-- Sends a run straight to the sink. It counts as sent once all of it was accepted. -/
def sendWhole (outlet : Outlet) (run : Array UInt8) : Except Error Unit × Outlet :=
  match outlet.sink.send run wholeRunFailed 0 with
  | (_, .ok (), sink) =>
    (.ok (), { outlet with sink := sink, flushed := outlet.flushed + run.size })
  | (_, .error fault, sink) =>
    (.error (.io "stream write failed" fault), { outlet with sink := sink })

/-- Adds a run of bytes. -/
def write (outlet : Outlet) (run : Array UInt8) (pool : Pool UInt8) :
    Except Error Unit × Outlet × Pool UInt8 :=
  match outlet.makeRoom run.size pool with
  | (.error e, outlet, pool) => (.error e, outlet, pool)
  | (.ok (), outlet, pool) =>
    if outlet.chunkSize < run.size then
      let (outcome, outlet) := outlet.sendWhole run
      (outcome, outlet, pool)
    else
      let (chunk, pool) := outlet.chunk.appendRun run pool
      (.ok (), { outlet with chunk := chunk }, pool)

/-- Adds one byte. -/
def add (outlet : Outlet) (value : UInt8) (pool : Pool UInt8) :
    Except Error Unit × Outlet × Pool UInt8 :=
  match outlet.makeRoom 1 pool with
  | (.error e, outlet, pool) => (.error e, outlet, pool)
  | (.ok (), outlet, pool) =>
    let (chunk, pool) := outlet.chunk.append value pool
    (.ok (), { outlet with chunk := chunk }, pool)

/-- Adds `count` bytes: answers what their places in the chunk held, and copies `content` over
their start. A count above the chunk's length is refused after the flush. -/
def acquire (outlet : Outlet) (count : Nat) (content : Array UInt8) (pool : Pool UInt8) :
    Except Error (Array UInt8) × Outlet × Pool UInt8 :=
  match outlet.makeRoom count pool with
  | (.error e, outlet, pool) => (.error e, outlet, pool)
  | (.ok (), outlet, pool) =>
    if outlet.needsFlushing count then
      (.error (.capacityExceeded count outlet.chunkSize), outlet, pool)
    else
      let (handed, chunk, pool) := outlet.chunk.acquire count true content pool
      (.ok handed, { outlet with chunk := chunk }, pool)

/-- Ends an outlet without a word about failures: sends what was gathered and gives the chunk
back. -/
def abandon (outlet : Outlet) (pool : Pool UInt8) : Sink × Pool UInt8 :=
  let (_, outlet, pool) := outlet.flush pool
  (outlet.sink, (outlet.chunk.dispose pool).2)

/-- Ends an outlet. Where its last flush fails, the flush is tried once more before the outlet is
gone, and the first failure is answered. -/
def close (outlet : Outlet) (pool : Pool UInt8) : Except Error Unit × Sink × Pool UInt8 :=
  match outlet.flush pool with
  | (.ok (), outlet, pool) => (.ok (), outlet.sink, (outlet.chunk.dispose pool).2)
  | (.error e, outlet, pool) =>
    let (sink, pool) := outlet.abandon pool
    (.error e, sink, pool)

instance : Borrower Outlet where
  loan outlet := { sink := some outlet.sink }

instance : Describe Outlet where
  describe outlet := Text.record "StreamChunkWriter"
    [("chunk_size", describe outlet.chunkSize), ("buffered", describe outlet.buffered),
      ("flushed", describe outlet.flushed)]

end Outlet

end PooledBuffers.Stream
