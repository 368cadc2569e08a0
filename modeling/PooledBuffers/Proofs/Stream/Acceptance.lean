import PooledBuffers.Proofs.Stream.Conservation

/-!
# Outlets on sinks that accept everything

A willing sink may cut what it is offered into any parts and interrupt as often as it likes, but it
never fails and never accepts nothing. Every call of an outlet on such a sink succeeds, except that
bytes that have to stay together need a chunk that is long enough.

* `Sink.send_willing` — offering a run ends with all of it accepted;
* `Outlet.write_willing`, `Outlet.add_willing`, `Outlet.acquire_willing` — the calls;
* `Outlet.close_willing` — at the end the sink has everything.
-/

namespace PooledBuffers.Stream

/-! ## Willing sinks -/

/-- A reply that accepts something or asks to be called again. -/
def WriteReply.Willing : WriteReply → Prop
  | accept limit => 0 < limit
  | acceptAll => True
  | fail fault => fault.kind = .interrupted

namespace Sink

structure Willing (sink : Sink) : Prop where
  writes : ∀ reply ∈ sink.writes, reply.Willing
  flushes : ∀ reply ∈ sink.flushes, reply = .done

variable {sink rest : Sink} {bytes : Array UInt8} {outcome : Except IoFault Nat}

theorem next_willing {writes : List WriteReply} (willing : ∀ reply ∈ writes, reply.Willing)
    {length : Nat} (positive : 0 < length) :
    (∀ reply ∈ (next length writes).2, reply.Willing) ∧
      match (next length writes).1 with
      | .ok count => 0 < count
      | .error fault => fault.kind = .interrupted := by
  cases writes with
  | nil => exact ⟨willing, positive⟩
  | cons reply writes =>
    have first := willing reply List.mem_cons_self
    refine ⟨fun reply mem => ?_, ?_⟩
    · cases reply <;> cases ‹WriteReply› <;> exact willing _ (List.mem_cons_of_mem _ mem)
    · cases reply with
      | accept limit => exact Nat.lt_min.2 ⟨first, positive⟩
      | acceptAll => exact positive
      | fail fault => exact first

theorem Willing.write (willing : sink.Willing) (some_bytes : 0 < bytes.size)
    (h : sink.write bytes = (outcome, rest)) :
    rest.Willing ∧
      match outcome with
      | .ok count => 0 < count
      | .error fault => fault.kind = .interrupted := by
  obtain ⟨still, accepts⟩ := next_willing willing.writes some_bytes
  unfold Sink.write at h
  rcases replied : next bytes.size sink.writes with ⟨reply, writes⟩
  rw [replied] at h still accepts
  cases reply with
  | ok count =>
    obtain ⟨rfl, rfl⟩ := Prod.mk.inj h
    exact ⟨⟨still, willing.flushes⟩, accepts⟩
  | error fault =>
    obtain ⟨rfl, rfl⟩ := Prod.mk.inj h
    exact ⟨⟨still, willing.flushes⟩, accepts⟩

/-- What is offered while the run is not accepted to its end. -/
theorem size_offered_pos {sent : Nat} (below : sent < bytes.size) :
    0 < (bytes.extract sent bytes.size).size := by
  rw [Array.size_extract]
  omega

theorem send_willing (willing : sink.Willing) (bytes : Array UInt8) (onZero : IoFault)
    (sent : Nat) :
    (sink.send bytes onZero sent).2.1 = .ok () ∧ (sink.send bytes onZero sent).2.2.Willing := by
  fun_induction Sink.send sink bytes onZero sent with
  | case1 sink sent below rest written =>
    -- A willing sink does not accept nothing of something.
    exact absurd (willing.write (size_offered_pos below) written).2 (Nat.lt_irrefl 0)
  | case2 sink sent below count rest written _ ih =>
    exact ih (willing.write (size_offered_pos below) written).1
  | case3 sink sent below fault rest written _ interrupted ih =>
    exact ih (willing.write (size_offered_pos below) written).1
  | case4 sink sent below fault rest written _ failed =>
    -- Its only faults are interruptions, after which it is called again.
    exact absurd (willing.write (size_offered_pos below) written).2 failed
  | case5 sink sent done => exact ⟨rfl, willing⟩

theorem Willing.flush (willing : sink.Willing) :
    ∃ rest, sink.flush = (.ok (), rest) ∧ rest.Willing := by
  have all := willing.flushes
  unfold Sink.flush
  cases flushes : sink.flushes <;> rw [flushes] at all
  case nil => exact ⟨_, rfl, willing.writes, all⟩
  case cons reply rest =>
    obtain rfl := all reply List.mem_cons_self
    exact ⟨_, rfl, willing.writes, fun reply mem => all reply (List.mem_cons_of_mem _ mem)⟩

end Sink

/-! ## Outlets -/

namespace Outlet

variable {outlet : Outlet} {pool : Pool UInt8}

section Willing

variable (sound : outlet.Sound pool) (willing : outlet.sink.Willing)

include willing

theorem flush_willing (pool : Pool UInt8) :
    (outlet.flush pool).1 = .ok () ∧ (outlet.flush pool).2.1.sink.Willing := by
  unfold flush
  by_cases nothing : outlet.chunk.position = 0
  · rw [if_pos nothing]
    exact ⟨rfl, willing⟩
  · rw [if_neg nothing]
    have sent := Sink.send_willing willing outlet.chunk.written nothingAccepted 0
    rcases offered : outlet.sink.send outlet.chunk.written nothingAccepted 0 with
      ⟨total, outcome, sink⟩
    rw [offered] at sent
    obtain ⟨rfl, still⟩ := sent
    obtain ⟨rest, flushed, last⟩ := still.flush
    simp only [flushed]
    exact ⟨trivial, last⟩

include sound

/-- Room is made, so that the addition fits, or the chunk is empty. -/
theorem makeRoom_willing (addition : Nat) :
    ∃ next, outlet.makeRoom addition pool = (.ok (), next, pool) ∧ Gained outlet #[] next pool ∧
      next.sink.Willing ∧ (addition + next.buffered ≤ next.chunkSize ∨ next.buffered = 0) := by
  obtain ⟨outcome, next, made, gained, room⟩ := makeRoom_spec sound addition
  have ok : (outlet.makeRoom addition pool).1 = .ok () ∧
      (outlet.makeRoom addition pool).2.1.sink.Willing := by
    unfold makeRoom
    split
    · exact flush_willing willing pool
    · exact ⟨rfl, willing⟩
  rw [made] at ok
  obtain ⟨rfl, still⟩ := ok
  exact ⟨next, made, gained, still, room rfl⟩

theorem write_willing (run : Array UInt8) :
    ∃ next, outlet.write run pool = (.ok (), next, pool) ∧ Gained outlet run next pool ∧
      next.sink.Willing := by
  obtain ⟨outcome, next, written, gained⟩ := write_spec sound run
  obtain ⟨middle, made, before, still, room⟩ := makeRoom_willing sound willing run.size
  -- That nothing is lost is known already; it remains that the call succeeds.
  have ok : (outlet.write run pool).1 = .ok () ∧ (outlet.write run pool).2.1.sink.Willing := by
    unfold write
    simp only [made]
    by_cases long : middle.chunkSize < run.size
    · have sent := Sink.send_willing still run wholeRunFailed 0
      simp only [long, ↓reduceIte, sendWhole]
      rcases offered : middle.sink.send run wholeRunFailed 0 with ⟨total, outcome, sink⟩
      rw [offered] at sent
      obtain ⟨rfl, last⟩ := sent
      exact ⟨rfl, last⟩
    · simp only [long, ↓reduceIte]
      exact ⟨trivial, still⟩
  rw [written] at ok
  obtain ⟨rfl, last⟩ := ok
  exact ⟨next, written, gained, last⟩

theorem add_willing (positive : 1 ≤ outlet.chunkSize) (value : UInt8) :
    ∃ next, outlet.add value pool = (.ok (), next, pool) ∧ Gained outlet #[value] next pool ∧
      next.sink.Willing := by
  obtain ⟨outcome, next, added, gained⟩ := add_spec sound positive value
  obtain ⟨middle, made, before, still, room⟩ := makeRoom_willing sound willing 1
  have ok : (outlet.add value pool).1 = .ok () ∧ (outlet.add value pool).2.1.sink.Willing := by
    unfold add
    simp only [made]
    exact ⟨trivial, still⟩
  rw [added] at ok
  obtain ⟨rfl, last⟩ := ok
  exact ⟨next, added, gained, last⟩

/-- Bytes that have to stay together are taken by a chunk of their length. -/
theorem acquire_willing {content : Array UInt8} (short : content.size ≤ outlet.chunkSize) :
    ∃ handed next, outlet.acquire content.size content pool = (.ok handed, next, pool) ∧
      Gained outlet content next pool ∧ next.sink.Willing := by
  obtain ⟨outcome, next, performed, gained⟩ := span_spec sound content
  obtain ⟨middle, made, before, still, room⟩ := makeRoom_willing sound willing content.size
  -- After the flush either the bytes fit, or the chunk is empty and as long as they are.
  have fits : ¬ middle.needsFlushing content.size = true := by
    have size := before.chunkSize_eq
    rw [before.sound.needsFlushing_iff]
    omega
  unfold perform at performed
  unfold acquire at performed ⊢
  simp only [made, fits, Bool.false_eq_true, ↓reduceIte] at performed ⊢
  obtain ⟨rfl, state⟩ := Prod.mk.inj performed
  obtain ⟨rfl, rest⟩ := Prod.mk.inj state
  refine ⟨_, _, Prod.ext rfl (Prod.ext rfl rest), gained, still⟩

/-- At the end the sink has all that was carried. -/
theorem close_willing :
    ∃ sink rest, outlet.close pool = (.ok (), sink, rest) ∧ sink.accepted = outlet.carried := by
  obtain ⟨outcome, next, sent, flushed, after, kept, emptied⟩ := flush_spec sound
  have ok := flush_willing willing pool
  rw [flushed] at ok
  obtain ⟨rfl, -⟩ := ok
  have held : next.chunk.written = #[] :=
    Array.eq_empty_of_size_eq_zero (after.size_written.trans (emptied rfl))
  have carried_eq := kept.carried_eq sound
  rw [carried, held, Array.append_empty] at carried_eq
  refine ⟨next.sink, (next.chunk.dispose pool).2, ?_, carried_eq⟩
  unfold close
  rw [flushed]

end Willing

end Outlet

end PooledBuffers.Stream
