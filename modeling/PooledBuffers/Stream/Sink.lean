import PooledBuffers.Error

/-!
# Sinks of bytes

A stream to write to, given by what it will do: each write and each flush takes the next reply.
Past the last reply a sink accepts everything, so every behaviour over finitely many calls is one
of these.

* `Sink.write` — one call; the sink says how many bytes it accepts.
* `Sink.send` — calls until all bytes are accepted, or the sink fails or accepts none.
-/

namespace PooledBuffers.Stream

/-- What a sink does when it is written to. -/
inductive WriteReply where
  /-- Accepts at most this many bytes. -/
  | accept (limit : Nat)
  | acceptAll
  | fail (fault : IoFault)
  deriving DecidableEq, Repr

/-- What a sink does when it is flushed. -/
inductive FlushReply where
  | done
  | fail (fault : IoFault)
  deriving DecidableEq, Repr

/-- One call of a sink: a write of `length` bytes with the count accepted, or a flush. -/
inductive SinkCall where
  | write (length : Nat) (outcome : Except IoFault.Kind Nat)
  | flush (outcome : Except IoFault.Kind Unit)

/-- A stream to write to. -/
structure Sink where
  /-- What the next writes do. -/
  writes : List WriteReply
  /-- What the next flushes do. -/
  flushes : List FlushReply
  /-- The bytes accepted so far. -/
  accepted : Array UInt8 := #[]
  /-- The calls so far. -/
  calls : Array SinkCall := #[]

namespace Sink

/-- How many of `length` bytes the next reply accepts. -/
def next (length : Nat) : List WriteReply → Except IoFault Nat × List WriteReply
  | [] => (.ok length, [])
  | .accept limit :: rest => (.ok (min limit length), rest)
  | .acceptAll :: rest => (.ok length, rest)
  | .fail fault :: rest => (.error fault, rest)

/-- Offers bytes, of which the sink accepts a number from the front. -/
def write (sink : Sink) (bytes : Array UInt8) : Except IoFault Nat × Sink :=
  let (outcome, writes) := next bytes.size sink.writes
  match outcome with
  | .ok count =>
    (.ok count,
      { sink with
        writes := writes
        accepted := sink.accepted ++ bytes.extract 0 count
        calls := sink.calls.push (.write bytes.size (.ok count)) })
  | .error fault =>
    (.error fault,
      { sink with
        writes := writes
        calls := sink.calls.push (.write bytes.size (.error fault.kind)) })

/-- Asks the sink to hand on what it accepted. -/
def flush (sink : Sink) : Except IoFault Unit × Sink :=
  match sink.flushes with
  | [] => (.ok (), { sink with calls := sink.calls.push (.flush (.ok ())) })
  | .done :: rest =>
    (.ok (), { sink with flushes := rest, calls := sink.calls.push (.flush (.ok ())) })
  | .fail fault :: rest =>
    (.error fault,
      { sink with flushes := rest, calls := sink.calls.push (.flush (.error fault.kind)) })

theorem length_next_le (length : Nat) (writes : List WriteReply) :
    (next length writes).2.length ≤ writes.length := by
  match writes with
  | [] => simp [next]
  | .accept _ :: _ => simp [next]
  | .acceptAll :: _ => simp [next]
  | .fail _ :: _ => simp [next]

theorem length_next_lt_of_error {length : Nat} {writes : List WriteReply} {fault : IoFault}
    (h : (next length writes).1 = .error fault) :
    (next length writes).2.length < writes.length := by
  match writes with
  | [] => simp [next] at h
  | .accept _ :: _ => simp [next] at h
  | .acceptAll :: _ => simp [next] at h
  | .fail _ :: _ => simp [next]

theorem writes_write (sink : Sink) (bytes : Array UInt8) :
    (sink.write bytes).2.writes = (next bytes.size sink.writes).2 := by
  simp only [write]
  split <;> rfl

theorem outcome_write (sink : Sink) (bytes : Array UInt8) :
    (sink.write bytes).1 = (next bytes.size sink.writes).1 := by
  simp only [write]
  split <;> simp_all

/-- A write uses up no reply or one. -/
theorem length_writes_of_write {sink rest : Sink} {bytes : Array UInt8}
    {outcome : Except IoFault Nat} (h : sink.write bytes = (outcome, rest)) :
    rest.writes.length ≤ sink.writes.length := by
  have shorter := length_next_le bytes.size sink.writes
  rwa [← writes_write, h] at shorter

/-- A write that fails uses up a reply. -/
theorem length_writes_of_write_error {sink rest : Sink} {bytes : Array UInt8} {fault : IoFault}
    (h : sink.write bytes = (.error fault, rest)) : rest.writes.length < sink.writes.length := by
  have failed := outcome_write sink bytes
  rw [h] at failed
  have shorter := length_next_lt_of_error failed.symm
  rwa [← writes_write, h] at shorter

/-- Offers the bytes from `sent` on until all are accepted, and answers how many of them were.
Interruptions are tried again; a sink that accepts nothing counts as failed with `onZero`. -/
def send (sink : Sink) (bytes : Array UInt8) (onZero : IoFault) (sent : Nat) :
    Nat × Except IoFault Unit × Sink :=
  if sent < bytes.size then
    match h : sink.write (bytes.extract sent bytes.size) with
    | (.ok 0, rest) => (sent, .error onZero, rest)
    | (.ok (count + 1), rest) =>
      have := length_writes_of_write h
      rest.send bytes onZero (sent + (count + 1))
    | (.error fault, rest) =>
      have := length_writes_of_write_error h
      if fault.kind = .interrupted then rest.send bytes onZero sent
      else (sent, .error fault, rest)
  else (sent, .ok (), sink)
termination_by (bytes.size - sent) + sink.writes.length

end Sink

end PooledBuffers.Stream
