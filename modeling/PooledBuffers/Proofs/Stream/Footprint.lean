import PooledBuffers.Proofs.Stream.Acceptance
import PooledBuffers.Proofs.Stream.Steps

/-!
# The memory of an outlet

An outlet keeps to the chunk that it was made with: what is gathered fits into it, it never becomes
longer, and nothing more is rented, also where a flush sends a part of it only. The sink is not
called without need: by a flush, or by a call whose bytes do not fit behind those gathered.

* `Sink.Offered`, `Sink.offered_send` — what the calls of a sink are like;
* `Outlet.Calls.offered`, `Outlet.Calls.sink_eq_or` — the calls of the sink that a call leads to;
* `Outlet.acquire_refused_iff` — when bytes are refused that have to stay together;
* `Outlet.keeps_to_chunk` — at any moment of an outlet, whatever its sink does.
-/

namespace PooledBuffers.Stream

/-! ## Sinks -/

/-- A write of something, or a flush. -/
def SinkCall.Offers : SinkCall → Prop
  | write length _ => 0 < length
  | flush _ => True

namespace Sink

variable {sink middle rest : Sink}

/-- The calls of a sink between two moments, none of which is a write of nothing. -/
structure Offered (sink : Sink) (calls : List SinkCall) (rest : Sink) : Prop where
  calls_eq : rest.calls.toList = sink.calls.toList ++ calls
  offers : ∀ call ∈ calls, call.Offers

theorem Offered.refl (sink : Sink) : sink.Offered [] sink :=
  ⟨(List.append_nil _).symm, nofun⟩

theorem Offered.trans {first second : List SinkCall} (before : sink.Offered first middle)
    (after : middle.Offered second rest) : sink.Offered (first ++ second) rest where
  calls_eq := by rw [after.calls_eq, before.calls_eq, List.append_assoc]
  offers call mem := (List.mem_append.1 mem).elim (before.offers call) (after.offers call)

theorem offered_push (call : SinkCall) (offers : call.Offers)
    (calls_eq : rest.calls = sink.calls.push call) : sink.Offered [call] rest where
  calls_eq := by rw [calls_eq, Array.toList_push]
  offers _ mem := List.mem_singleton.1 mem ▸ offers

/-- Every write is entered with what it offers. -/
theorem offered_write {bytes : Array UInt8} {outcome : Except IoFault Nat}
    (some_bytes : 0 < bytes.size) (written : sink.write bytes = (outcome, rest)) :
    ∃ calls, sink.Offered calls rest := by
  unfold write at written
  rcases replied : next bytes.size sink.writes with ⟨_ | _, writes⟩
  all_goals
    rw [replied] at written
    cases written
    exact ⟨_, offered_push (.write bytes.size _) some_bytes rfl⟩

theorem offered_flush {outcome : Except IoFault Unit} (flushed : sink.flush = (outcome, rest)) :
    ∃ calls, sink.Offered calls rest := by
  have entered : ∃ reply, rest.calls = sink.calls.push (.flush reply) := by
    unfold flush at flushed
    split at flushed <;> cases flushed <;> exact ⟨_, rfl⟩
  obtain ⟨reply, calls_eq⟩ := entered
  exact ⟨_, offered_push (.flush reply) trivial calls_eq⟩

/-- While a run is offered, nothing else is: the loop ends before there is nothing left of it. -/
theorem offered_send (sink : Sink) (bytes : Array UInt8) (onZero : IoFault) (sent : Nat) :
    ∃ calls, sink.Offered calls (sink.send bytes onZero sent).2.2 := by
  fun_induction Sink.send sink bytes onZero sent with
  | case1 sink sent below rest written => exact offered_write (size_offered_pos below) written
  | case2 sink sent below count rest written _ ih =>
    obtain ⟨first, here⟩ := offered_write (size_offered_pos below) written
    obtain ⟨later, there⟩ := ih
    exact ⟨_, here.trans there⟩
  | case3 sink sent below fault rest written _ interrupted ih =>
    obtain ⟨first, here⟩ := offered_write (size_offered_pos below) written
    obtain ⟨later, there⟩ := ih
    exact ⟨_, here.trans there⟩
  | case4 sink sent below fault rest written _ failed =>
    exact offered_write (size_offered_pos below) written
  | case5 sink sent done => exact ⟨[], .refl sink⟩

end Sink

/-! ## Outlets -/

namespace Outlet

variable {outlet next : Outlet} {pool : Pool UInt8} {outcome : Except Error Unit}
variable {action : Action}

/-- Something is sent in a flush only if something is gathered, and all of it is offered. -/
theorem Flushes.offered (flushes : outlet.Flushes outcome next) :
    ∃ calls, outlet.sink.Offered calls next.sink := by
  have sending := outlet.sink.offered_send outlet.chunk.written nothingAccepted 0
  cases flushes with
  | idle empty => exact ⟨[], .refl _⟩
  | stuck offered less kept sink_eq buffered_eq flushed_eq =>
    rw [offered] at sending
    exact sink_eq ▸ sending
  | sent held offered asked =>
    rw [offered] at sending
    obtain ⟨writes, here⟩ := sending
    obtain ⟨flush, there⟩ := Sink.offered_flush asked
    exact ⟨_, here.trans there⟩
  | taken held offered asked =>
    rw [offered] at sending
    obtain ⟨writes, here⟩ := sending
    obtain ⟨flush, there⟩ := Sink.offered_flush asked
    exact ⟨_, here.trans there⟩

theorem MakesRoom.offered {addition : Nat} (room : outlet.MakesRoom addition outcome next) :
    ∃ calls, outlet.sink.Offered calls next.sink := by
  cases room with
  | fits enough => exact ⟨[], .refl _⟩
  | flushed full flushes => exact flushes.offered

theorem offered_sendWhole {run : Array UInt8} (sent : outlet.sendWhole run = (outcome, next)) :
    ∃ calls, outlet.sink.Offered calls next.sink := by
  have sending := outlet.sink.offered_send run wholeRunFailed 0
  unfold sendWhole at sent
  rcases offered : outlet.sink.send run wholeRunFailed 0 with ⟨total, _ | _, sink⟩
  all_goals
    rw [offered] at sent sending
    cases sent
    exact sending

theorem Calls.offered (calls : outlet.Calls action outcome next) :
    ∃ calls, outlet.sink.Offered calls next.sink := by
  cases calls with
  | flushed flushes => exact flushes.offered
  | noRoom room => exact room.offered
  | gathered room inside => exact room.offered
  | bypassed room empty long sent =>
    obtain ⟨first, here⟩ := room.offered
    obtain ⟨later, there⟩ := offered_sendWhole sent
    exact ⟨_, here.trans there⟩
  | refused room empty long => exact room.offered

theorem MakesRoom.eq_or {addition : Nat} (room : outlet.MakesRoom addition outcome next) :
    next = outlet ∨ outlet.chunkSize < outlet.buffered + addition := by
  cases room with
  | fits enough => exact .inl rfl
  | flushed full flushes => exact .inr full

/-- A call leaves the sink alone, unless it is a flush or its bytes do not fit behind those
gathered. -/
theorem Calls.sink_eq_or (calls : outlet.Calls action outcome next) :
    next.sink = outlet.sink ∨ action = .flush ∨
      outlet.chunkSize < outlet.buffered + action.payload.size := by
  cases calls with
  | flushed flushes => exact .inr (.inl rfl)
  | noRoom room => exact room.eq_or.imp (congrArg sink) .inr
  | gathered room inside =>
    rcases room.eq_or with rfl | full
    · exact .inl rfl
    · exact .inr (.inr full)
  | bypassed room empty long sent =>
    rcases room.eq_or with rfl | full
    · exact .inr (.inr (Nat.lt_of_lt_of_le long (Nat.le_add_left _ _)))
    · exact .inr (.inr full)
  | refused room empty long => exact room.eq_or.imp (congrArg sink) .inr

/-- A flush fails only with what the sink reports. -/
theorem Flushes.not_refused {requested capacity : Nat} :
    ¬ outlet.Flushes (.error (.capacityExceeded requested capacity)) next := nofun

/-- Bytes that have to stay together are refused exactly if they are too many for the chunk and the
flush before them succeeds. -/
theorem acquire_refused_iff (sound : outlet.Sound pool) (count : Nat) (content : Array UInt8)
    (requested capacity : Nat) :
    (outlet.acquire count content pool).1 = .error (.capacityExceeded requested capacity) ↔
      requested = count ∧ capacity = outlet.chunkSize ∧ outlet.chunkSize < count ∧
        (outlet.flush pool).1 = .ok () := by
  unfold acquire
  by_cases long : outlet.chunkSize < count
  · -- Then room is made by a flush, whatever is gathered.
    have made : outlet.makeRoom count pool = outlet.flush pool :=
      if_pos ((sound.needsFlushing_iff count).2 (Nat.lt_of_lt_of_le long (Nat.le_add_right _ _)))
    obtain ⟨reply, next, sent, flushed, after, kept, -⟩ := flush_spec sound
    have flushes := flushes_of_flush sound flushed
    rw [made, flushed]
    cases reply with
    | error e =>
      refine ⟨fun refused => ?_, fun ⟨_, _, _, done⟩ => nomatch done⟩
      cases Except.error.inj refused
      exact absurd flushes Flushes.not_refused
    | ok =>
      have full : next.needsFlushing count = true := by
        have same := kept.chunkSize_eq
        rw [after.needsFlushing_iff]
        omega
      simp only [full, ↓reduceIte, kept.chunkSize_eq, Except.error.injEq,
        Error.capacityExceeded.injEq]
      exact ⟨fun ⟨count_eq, size_eq⟩ => ⟨count_eq.symm, size_eq.symm, long, trivial⟩,
        fun ⟨count_eq, size_eq, _, _⟩ => ⟨count_eq.symm, size_eq.symm⟩⟩
  · refine iff_of_false ?_ fun ⟨_, _, beyond, _⟩ => long beyond
    obtain ⟨reply, next, made, before, room⟩ := makeRoom_spec sound count
    have makes := makesRoom_of_makeRoom sound made
    simp only [made]
    cases reply with
    | error e =>
      intro refused
      cases Except.error.inj refused
      cases makes with
      | flushed full flushes => exact Flushes.not_refused flushes
    | ok =>
      have fits : ¬ next.needsFlushing count = true := by
        have same := before.chunkSize_eq
        rw [before.sound.needsFlushing_iff]
        rcases room rfl with fits | empty <;> omega
      simp [fits]

/-- Whatever a sink does, an outlet keeps to its chunk: at any moment what is gathered fits into
it, it is as long as at the start, and the pool is as it was after its making. A further call,
with any pool, keeps to this, writes something in all writes to the sink, and calls it only for a
flush or where its bytes do not fit behind those gathered. Bytes that have to stay together are
refused exactly if they are too many for the chunk and the flush before them succeeds. -/
theorem keeps_to_chunk (sink : Sink) {config : Config} {pool : Pool UInt8}
    (positive : 1 ≤ config.chunkSize) (small : config.chunkSize ≤ Size.maxCapacity)
    (reachable : pool.Reachable) (actions : List Action) :
    ∃ first, ofConfig sink config pool = .ok first ∧
      let last := run first actions
      last.2 = first.2 ∧ last.1.buffered ≤ config.chunkSize ∧
      last.1.chunk.capacity = config.chunkSize ∧
      ∀ other : Pool UInt8, other.Reachable →
        (∀ action,
          let next := (last.1.perform other action).2
          next.2 = other ∧ next.1.buffered ≤ config.chunkSize ∧
          next.1.chunk.capacity = config.chunkSize ∧
          ∃ calls, next.1.sink.calls.toList = last.1.sink.calls.toList ++ calls ∧
            (∀ length outcome, .write length outcome ∈ calls → 0 < length) ∧
            (calls ≠ [] → action = .flush ∨
              config.chunkSize < last.1.buffered + action.payload.size)) ∧
        ∀ count content requested capacity,
          (last.1.acquire count content other).1 = .error (.capacityExceeded requested capacity) ↔
            requested = count ∧ capacity = config.chunkSize ∧ config.chunkSize < count ∧
              (last.1.flush other).1 = .ok () := by
  obtain ⟨first, pool, made, start, -, chunkSize, -⟩ :=
    sound_ofConfig sink positive small reachable.sound
  obtain ⟨last, performed, after⟩ := carried_run actions start (chunkSize ▸ positive)
  have size := after.chunkSize_eq.trans chunkSize
  have sound := after.sound
  refine ⟨(first, pool), made, ?_⟩
  simp only [performed]
  refine ⟨trivial, size ▸ sound.buffered_le, size ▸ sound.capacity_eq, fun other others => ?_⟩
  -- The pool of a call need not be the one that the chunk was rented from.
  have here : last.Sound other := { sound with pool_sound := others.sound }
  refine ⟨fun action => ?_, fun count content requested capacity => ?_⟩
  · obtain ⟨outcome, next, answered, gained⟩ := carried_perform here (size ▸ positive) action
    have same := gained.chunkSize_eq.trans size
    have calls := calls_of_perform here (size ▸ positive) answered
    obtain ⟨entries, offered⟩ := calls.offered
    simp only [answered]
    refine ⟨trivial, same ▸ gained.sound.buffered_le, same ▸ gained.sound.capacity_eq, entries,
      offered.calls_eq, fun length outcome mem => offered.offers _ mem, fun some_calls => ?_⟩
    rcases calls.sink_eq_or with same_sink | needed
    · have calls_eq := offered.calls_eq
      rw [same_sink] at calls_eq
      exact absurd (List.append_right_eq_self.1 calls_eq.symm) some_calls
    · rwa [size] at needed
  · rw [← size]
    exact acquire_refused_iff here count content requested capacity

/-- A chunk of two bytes is full; of the flush that the next byte needs the sink takes one byte and
breaks. What is left and three bytes together are then refused, with the chunk emptied first. -/
theorem keeps_to_chunk_broken :
    let sink : Sink :=
      { writes := [.accept 1, .fail ⟨.brokenPipe, none⟩], flushes := [] }
    (Pool.standard : Pool UInt8).Reachable ∧
      ∃ first, ofConfig sink ⟨2⟩ Pool.standard = .ok first ∧
        let last := run first [.write #[1, 2], .add 3]
        last.2 = first.2 ∧ last.1.chunk.capacity = 2 ∧
        (∃ calls : List SinkCall,
          (last.1.perform Pool.standard (.span #[4, 5, 6])).2.1.sink.calls.toList =
            last.1.sink.calls.toList ++ calls) ∧
        (last.1.acquire 3 #[4, 5, 6] Pool.standard).1 = .error (.capacityExceeded 3 2) := by
  intro sink
  obtain ⟨first, made, same, -, size, further⟩ := keeps_to_chunk sink
    (by decide : 1 ≤ (Config.mk 2).chunkSize) (by decide) Pool.reachable_standard
    [.write #[1, 2], .add 3]
  obtain ⟨calls, refused_iff⟩ := further Pool.standard Pool.reachable_standard
  obtain ⟨-, -, -, entries, calls_eq, -⟩ := calls (.span #[4, 5, 6])
  have first_eq : ofValid sink ⟨2⟩ Pool.standard = first := Except.ok.inj made
  refine ⟨Pool.reachable_standard, first, made, same, size, ⟨entries, calls_eq⟩, ?_⟩
  refine (refused_iff 3 #[4, 5, 6] 3 2).2 ⟨rfl, rfl, by decide, ?_⟩
  have succeeds : ((run (ofValid sink ⟨2⟩ Pool.standard) [.write #[1, 2], .add 3]).1.flush
      Pool.standard).1.isOk = true := by decide +kernel
  rw [← first_eq]
  cases flushed : ((run (ofValid sink ⟨2⟩ Pool.standard) [.write #[1, 2], .add 3]).1.flush
      Pool.standard).1 with
  | ok => rfl
  | error e =>
    rw [flushed] at succeeds
    cases succeeds

end Outlet

end PooledBuffers.Stream
