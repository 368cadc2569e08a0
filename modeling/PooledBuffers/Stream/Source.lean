import PooledBuffers.Error

/-!
# Sources of bytes

A stream to read from, given by what it will do: each read takes the next reply. Past the last
reply the stream is at its end for good, so every behaviour over finitely many reads is one of
these.

Main statement: `weight_read_lt` — a read that delivers bytes or fails uses up part of the source,
which is why loops that read until they have enough come to an end.
-/

namespace PooledBuffers.Stream

/-- What a source does when it is read. -/
inductive ReadReply where
  /-- Delivers as many of the bytes as fit; the others are kept for the next read. Without bytes
  the source says that it is at its end, once. -/
  | data (bytes : List UInt8)
  | eof
  | fail (fault : IoFault)
  deriving DecidableEq, Repr

/-- One call of a source: the room it was given, and the count of bytes or the failure. -/
structure ReadCall where
  room : Nat
  outcome : Except IoFault.Kind Nat

/-- A stream to read from. -/
structure Source where
  /-- What the next reads do. -/
  replies : List ReadReply
  /-- The calls so far. -/
  calls : Array ReadCall := #[]

namespace Source

/-- How much a reply can still give: its bytes, and itself. -/
def replyWeight : ReadReply → Nat
  | .data bytes => bytes.length + 1
  | .eof => 1
  | .fail _ => 1

/-- How much replies can still give together. -/
def repliesWeight : List ReadReply → Nat
  | [] => 0
  | reply :: rest => replyWeight reply + repliesWeight rest

/-- How much is left of a source. -/
def weight (source : Source) : Nat :=
  repliesWeight source.replies

/-- The next reply, delivered into `room` bytes. -/
def next (room : Nat) : List ReadReply → Except IoFault (List UInt8) × List ReadReply
  | [] => (.ok [], [])
  | .data bytes :: rest =>
    match bytes.drop room with
    | [] => (.ok (bytes.take room), rest)
    | kept => (.ok (bytes.take room), .data kept :: rest)
  | .eof :: rest => (.ok [], rest)
  | .fail fault :: rest => (.error fault, rest)

/-- Reads at most `room` bytes. No bytes mean that the source is at its end for now. -/
def read (source : Source) (room : Nat) : Except IoFault (List UInt8) × Source :=
  let (outcome, replies) := next room source.replies
  let count : Except IoFault.Kind Nat :=
    match outcome with
    | .ok bytes => .ok bytes.length
    | .error fault => .error fault.kind
  (outcome, { replies := replies, calls := source.calls.push ⟨room, count⟩ })

/-- A read that delivers bytes, or fails, leaves less of the source. -/
theorem weight_read_lt {source : Source} {room : Nat}
    (h : (source.read room).1 ≠ .ok []) : (source.read room).2.weight < source.weight := by
  obtain ⟨replies, calls⟩ := source
  match replies with
  | [] => exact absurd rfl h
  | .eof :: rest => exact absurd rfl h
  | .fail fault :: rest => simp [read, next, weight, repliesWeight, replyWeight]
  | .data bytes :: rest =>
    simp only [read, next] at h ⊢
    split
    · simp [weight, repliesWeight, replyWeight]
    · rename_i kept hkept
      have room_pos : 0 < room := by
        rcases Nat.eq_zero_or_pos room with rfl | pos
        · simp at h
          split at h <;> simp_all
        · exact pos
      have length_kept : (bytes.drop room).length = bytes.length - room := List.length_drop
      have kept_ne : bytes.drop room ≠ [] := by simpa using hkept
      have kept_pos := List.length_pos_iff.2 kept_ne
      simp only [weight, repliesWeight, replyWeight]
      omega

/-- The same, of a read whose result was taken apart. -/
theorem weight_lt_of_read {source rest : Source} {room : Nat}
    {outcome : Except IoFault (List UInt8)} (h : source.read room = (outcome, rest))
    (used : outcome ≠ .ok []) : rest.weight < source.weight := by
  have less := @weight_read_lt source room (by rw [h]; exact used)
  rwa [h] at less

end Source

end PooledBuffers.Stream
