import PooledBuffers.Proofs.Stream.Conservation

/-!
# All that a call of an outlet can do

What is known of a call before it is made is little: the sink may do anything. But there are only a
few ways in which a call can go, and each leaves the outlet in a state that can be named.

* `Outlet.Flushes` — the ways of a flush: nothing to send, stuck in the middle, or all sent;
* `Outlet.MakesRoom` — room was there already, or a flush made it;
* `Outlet.Calls` — the ways of a call;
* `Outlet.flushes_of_flush`, `Outlet.makesRoom_of_makeRoom`, `Outlet.calls_of_perform` — that there
  are no others;
* `Outlet.invariant_run` — what they all keep holds after any run of calls.
-/

namespace PooledBuffers.Stream

/-- A sink that fails has not taken all it was offered. -/
theorem Sink.send_error_lt {sink rest : Sink} {bytes : Array UInt8} {onZero fault : IoFault}
    {sent total : Nat} (offered : sink.send bytes onZero sent = (total, .error fault, rest)) :
    total < bytes.size := by
  fun_induction Sink.send sink bytes onZero sent with
  | case1 sink sent below rest written =>
    cases offered
    exact below
  | case2 sink sent below count rest written _ ih => exact ih offered
  | case3 sink sent below fault rest written _ interrupted ih => exact ih offered
  | case4 sink sent below fault rest written _ failed =>
    cases offered
    exact below
  | case5 sink sent done => cases offered

namespace Outlet

variable {outlet next : Outlet} {pool rest : Pool UInt8} {outcome : Except Error Unit}

/-! ## Flushing -/

/-- The ways in which a flush can go. -/
inductive Flushes (outlet : Outlet) : Except Error Unit → Outlet → Prop where
  /-- There is nothing to send, and the sink is not called. -/
  | idle (empty : outlet.buffered = 0) : Flushes outlet (.ok ()) outlet
  /-- The sink fails before it has taken everything, and the rest is kept. -/
  | stuck {sent : Nat} {fault : IoFault} {sink : Sink} {next : Outlet}
      (offered : outlet.sink.send outlet.chunk.written nothingAccepted 0 =
        (sent, .error fault, sink))
      (less : sent < outlet.buffered) (kept : Kept outlet sent next) (sink_eq : next.sink = sink)
      (buffered_eq : next.buffered = outlet.buffered - sent)
      (flushed_eq : next.flushed = outlet.flushed + sent) :
      Flushes outlet (.error (.io "stream write failed" fault)) next
  /-- The sink takes everything and hands it on. -/
  | sent {sink rest : Sink} (held : outlet.buffered ≠ 0)
      (offered : outlet.sink.send outlet.chunk.written nothingAccepted 0 =
        (outlet.buffered, .ok (), sink))
      (asked : sink.flush = (.ok (), rest)) : Flushes outlet (.ok ()) (outlet.emptied rest)
  /-- The sink takes everything and fails to hand it on. -/
  | taken {sink rest : Sink} {fault : IoFault} (held : outlet.buffered ≠ 0)
      (offered : outlet.sink.send outlet.chunk.written nothingAccepted 0 =
        (outlet.buffered, .ok (), sink))
      (asked : sink.flush = (.error fault, rest)) :
      Flushes outlet (.error (.io "stream flush failed" fault)) (outlet.emptied rest)

/-- What is taken out of the chunk is counted as sent instead. -/
theorem flushed_drain {sent : Nat} (drained : outlet.drain sent pool = (.ok (), next, rest)) :
    next.flushed = outlet.flushed + sent := by
  unfold drain at drained
  by_cases none_sent : sent = 0
  · rw [if_pos none_sent] at drained
    cases drained
    rw [none_sent, Nat.add_zero]
  rw [if_neg none_sent] at drained
  cases moved : outlet.chunk.moveWithin sent (outlet.chunk.position - sent) 0 false pool with
  | error e => simp [moved] at drained
  | ok state =>
    cases placed : state.1.setPosition (outlet.chunk.position - sent) with
    | error e => simp [moved, placed] at drained
    | ok chunk =>
      simp only [moved, placed] at drained
      cases drained
      rfl

theorem flushes_of_flush (sound : outlet.Sound pool)
    (flushed : outlet.flush pool = (outcome, next, rest)) : outlet.Flushes outcome next := by
  unfold flush at flushed
  by_cases nothing : outlet.chunk.position = 0
  · rw [if_pos nothing] at flushed
    cases flushed
    exact .idle nothing
  rw [if_neg nothing] at flushed
  have took := outlet.sink.send_spec outlet.chunk.written nothingAccepted 0 (Nat.zero_le _)
  rcases offered : outlet.sink.send outlet.chunk.written nothingAccepted 0 with
    ⟨sent, reply, sink⟩
  rw [offered] at took
  cases reply with
  | error fault =>
    have less : sent < outlet.buffered := sound.size_written ▸ Sink.send_error_lt offered
    have waiting : Outlet.Sound { outlet with sink := sink } pool := { sound with }
    have inside := Nat.le_of_lt less
    obtain ⟨kept, drained, after, sink_eq, chunkSize_eq, written_eq⟩ := drain_spec waiting inside
    simp only [offered, drained] at flushed
    cases flushed
    have buffered_eq : next.buffered = outlet.buffered - sent := by
      have size := sound.size_written
      rw [← after.size_written, written_eq, Array.size_extract]
      exact congrArg (· - sent) (Nat.min_eq_left (Nat.le_of_eq size.symm))
    have accepted_eq :
        next.sink.accepted = outlet.sink.accepted ++ outlet.chunk.written.extract 0 sent := by
      rw [sink_eq]
      exact took.accepted_eq
    have flushed_eq := flushed_drain drained
    exact .stuck offered less ⟨inside, accepted_eq, written_eq, chunkSize_eq⟩ sink_eq buffered_eq
      flushed_eq
  | ok =>
    have whole : sent = outlet.buffered := (took.whole rfl).trans sound.size_written
    rw [whole] at offered
    rcases asked : sink.flush with ⟨reply, last⟩
    simp only [offered, asked] at flushed
    cases reply with
    | ok =>
      cases flushed
      exact .sent nothing offered asked
    | error fault =>
      cases flushed
      exact .taken nothing offered asked

/-- A flush that succeeds leaves nothing in the chunk. -/
theorem Flushes.empty (flushes : outlet.Flushes (.ok ()) next) : next.buffered = 0 := by
  cases flushes with
  | idle empty => exact empty
  | sent held offered asked => rfl

theorem Flushes.chunkSize_eq (flushes : outlet.Flushes outcome next) :
    next.chunkSize = outlet.chunkSize := by
  cases flushes with
  | idle empty => rfl
  | stuck offered less kept sink_eq buffered_eq flushed_eq => exact kept.chunkSize_eq
  | sent held offered asked => rfl
  | taken held offered asked => rfl

/-! ## Calls -/

/-- The ways in which room can be made for `addition` more bytes. -/
inductive MakesRoom (outlet : Outlet) (addition : Nat) : Except Error Unit → Outlet → Prop where
  | fits (enough : outlet.buffered + addition ≤ outlet.chunkSize) :
      MakesRoom outlet addition (.ok ()) outlet
  | flushed {outcome : Except Error Unit} {next : Outlet}
      (full : outlet.chunkSize < outlet.buffered + addition)
      (flushes : outlet.Flushes outcome next) : MakesRoom outlet addition outcome next

theorem makesRoom_of_makeRoom (sound : outlet.Sound pool) {addition : Nat}
    (made : outlet.makeRoom addition pool = (outcome, next, rest)) :
    outlet.MakesRoom addition outcome next := by
  unfold makeRoom at made
  have full := sound.needsFlushing_iff addition
  split at made
  · rename_i needed
    exact .flushed (by rw [Nat.add_comm]; exact full.mp needed) (flushes_of_flush sound made)
  · rename_i enough
    have fits := mt full.mpr enough
    cases made
    exact .fits (by omega)

theorem MakesRoom.chunkSize_eq {addition : Nat} (room : outlet.MakesRoom addition outcome next) :
    next.chunkSize = outlet.chunkSize := by
  cases room with
  | fits enough => rfl
  | flushed full flushes => exact flushes.chunkSize_eq

/-- Room made for some bytes holds them, or they are too many for the chunk, which is empty. -/
theorem MakesRoom.fits_or_long {addition : Nat} (room : outlet.MakesRoom addition (.ok ()) next) :
    next.buffered + addition ≤ next.chunkSize ∨
      next.buffered = 0 ∧ next.chunkSize < addition := by
  cases room with
  | fits enough => exact .inl enough
  | flushed full flushes =>
    have empty := flushes.empty
    omega

/-- The ways in which a call can go. -/
inductive Calls (outlet : Outlet) : Action → Except Error Unit → Outlet → Prop where
  | flushed {outcome : Except Error Unit} {next : Outlet} (flushes : outlet.Flushes outcome next) :
      Calls outlet .flush outcome next
  /-- The flush in front of it fails, and with it the call. -/
  | noRoom {action : Action} {e : Error} {next : Outlet}
      (room : outlet.MakesRoom action.payload.size (.error e) next) :
      Calls outlet action (.error e) next
  /-- Its bytes are put into the chunk. -/
  | gathered {action : Action} {middle : Outlet}
      (room : outlet.MakesRoom action.payload.size (.ok ()) middle)
      (inside : middle.buffered + action.payload.size ≤ middle.chunkSize) :
      Calls outlet action (.ok ()) { middle with chunk := middle.chunk.stamp action.payload }
  /-- They are too many for the chunk and go past it, which has to be empty. -/
  | bypassed {run : Array UInt8} {middle next : Outlet} {outcome : Except Error Unit}
      (room : outlet.MakesRoom run.size (.ok ()) middle) (empty : middle.buffered = 0)
      (long : middle.chunkSize < run.size) (sent : middle.sendWhole run = (outcome, next)) :
      Calls outlet (.write run) outcome next
  /-- They are too many for the chunk and have to stay together. -/
  | refused {content : Array UInt8} {middle : Outlet}
      (room : outlet.MakesRoom content.size (.ok ()) middle) (empty : middle.buffered = 0)
      (long : middle.chunkSize < content.size) :
      Calls outlet (.span content) (.error (.capacityExceeded content.size middle.chunkSize)) middle

theorem calls_of_perform (sound : outlet.Sound pool) (positive : 1 ≤ outlet.chunkSize)
    {action : Action} (performed : outlet.perform pool action = (outcome, next, rest)) :
    outlet.Calls action outcome next := by
  cases action with
  | flush => exact .flushed (flushes_of_flush sound performed)
  | write run =>
    obtain ⟨reply, middle, made, before, -⟩ := makeRoom_spec sound run.size
    have room := makesRoom_of_makeRoom sound made
    unfold perform write at performed
    simp only [made] at performed
    cases reply with
    | error e =>
      cases performed
      exact .noRoom room
    | ok =>
      rcases room.fits_or_long with inside | ⟨empty, long⟩
      · have short : ¬ middle.chunkSize < run.size := by omega
        simp only [short, ↓reduceIte, Writer.appendRun_of_le (before.sound.room inside)]
          at performed
        cases performed
        exact .gathered room inside
      · simp only [long, ↓reduceIte] at performed
        rcases sent : middle.sendWhole run with ⟨reply, last⟩
        rw [sent] at performed
        cases performed
        exact .bypassed room empty long sent
  | add value =>
    obtain ⟨reply, middle, made, before, -⟩ := makeRoom_spec sound 1
    have room := makesRoom_of_makeRoom sound made
    unfold perform add at performed
    simp only [made] at performed
    cases reply with
    | error e =>
      cases performed
      exact .noRoom room
    | ok =>
      have inside : middle.buffered + 1 ≤ middle.chunkSize := by
        have same := room.chunkSize_eq
        rcases room.fits_or_long with inside | ⟨-, long⟩ <;> omega
      simp only [Writer.append_of_le (before.sound.room inside)] at performed
      cases performed
      exact .gathered room inside
  | span content =>
    obtain ⟨reply, middle, made, before, -⟩ := makeRoom_spec sound content.size
    have room := makesRoom_of_makeRoom sound made
    have needed := before.sound.needsFlushing_iff content.size
    unfold perform acquire at performed
    simp only [made] at performed
    cases reply with
    | error e =>
      cases performed
      exact .noRoom room
    | ok =>
      rcases room.fits_or_long with inside | ⟨empty, long⟩
      · have fits : ¬ middle.needsFlushing content.size = true := by
          rw [needed]
          omega
        have acquired : (middle.chunk.acquire content.size true content pool).2 =
            (middle.chunk.stamp content, pool) :=
          Writer.acquire_of_le (before.sound.room inside)
        rcases taken : middle.chunk.acquire content.size true content pool with
          ⟨handed, chunk, left⟩
        rw [taken] at acquired
        cases acquired
        simp only [fits, taken] at performed
        cases performed
        exact .gathered room inside
      · have full : middle.needsFlushing content.size = true := by
          rw [needed]
          omega
        simp only [full, ↓reduceIte] at performed
        cases performed
        exact .refused room empty long

/-! ## Runs -/

/-- What every way of every call keeps holds after a run of them. -/
theorem invariant_run {holds : Outlet → Prop} {size : Nat} (positive : 1 ≤ size)
    (actions : List Action)
    (kept : ∀ {action outlet outcome next}, action ∈ actions → outlet.chunkSize = size →
      outlet.Calls action outcome next → holds outlet → holds next) :
    ∀ {outlet : Outlet}, outlet.Sound pool → outlet.chunkSize = size → holds outlet →
      holds (run (outlet, pool) actions).1 := by
  induction actions with
  | nil =>
    intro outlet _ _ start
    exact start
  | cons action rest ih =>
    intro outlet sound same start
    have positive : 1 ≤ outlet.chunkSize := same ▸ positive
    obtain ⟨outcome, next, performed, first⟩ := carried_perform sound positive action
    have calls := calls_of_perform sound positive performed
    unfold run
    simp only [performed]
    refine ih (fun mem => kept (List.mem_cons_of_mem _ mem)) first.sound
      (first.chunkSize_eq.trans same) ?_
    exact kept List.mem_cons_self same calls start

end Outlet

end PooledBuffers.Stream
