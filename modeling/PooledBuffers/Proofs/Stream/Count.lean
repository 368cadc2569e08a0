import PooledBuffers.Proofs.Stream.Steps

/-!
# What an outlet counts as sent

An outlet counts the bytes of every call that succeeds and none of a call that fails. Of a run that
goes past the chunk and fails in its middle the sink keeps the part that it took, though, and by
these parts the count falls behind what the sink has.

* `Outlet.Action.counted` — what a call adds to the count; `Outlet.Calls.bytesWritten_eq` — that it
  adds this, whichever way it goes;
* `Outlet.missed`, `Outlet.missedAll` — the bytes that are with the sink and were not counted;
* `Outlet.bytesWritten_run` — a run of calls;
* `Outlet.accepted_eq_counted` — the count, what is held, and what the sink accepted, at any time.
-/

namespace PooledBuffers.Stream.Outlet

variable {outlet next : Outlet} {pool : Pool UInt8} {outcome : Except Error Unit}
variable {action : Action}

/-! ## One call -/

/-- The number of bytes that a call adds to the count: all that it is given, if it succeeds. -/
def Action.counted (action : Action) : Except Error Unit → Nat
  | .ok () => action.payload.size
  | .error _ => 0

/-- A flush takes bytes from those held and counts them as sent, whichever way it goes. -/
theorem Flushes.bytesWritten_eq (flushes : outlet.Flushes outcome next) :
    next.bytesWritten = outlet.bytesWritten := by
  cases flushes with
  | idle empty => rfl
  | stuck offered less kept sink_eq buffered_eq flushed_eq =>
    show next.flushed + next.buffered = outlet.flushed + outlet.buffered
    omega
  | sent held offered asked => rfl
  | taken held offered asked => rfl

theorem MakesRoom.bytesWritten_eq {addition : Nat}
    (room : outlet.MakesRoom addition outcome next) :
    next.bytesWritten = outlet.bytesWritten := by
  cases room with
  | fits enough => rfl
  | flushed full flushes => exact flushes.bytesWritten_eq

theorem bytesWritten_sendWhole {run : Array UInt8} (sent : outlet.sendWhole run = (outcome, next)) :
    next.bytesWritten = outlet.bytesWritten + (Action.write run).counted outcome := by
  unfold sendWhole at sent
  rcases offered : outlet.sink.send run wholeRunFailed 0 with ⟨total, reply, sink⟩
  rw [offered] at sent
  cases reply with
  | ok =>
    cases sent
    exact Nat.add_right_comm outlet.flushed run.size outlet.buffered
  | error fault =>
    cases sent
    rfl

/-- A call adds to the count all that it is given if it succeeds, and nothing if it fails. -/
theorem Calls.bytesWritten_eq (calls : outlet.Calls action outcome next) :
    next.bytesWritten = outlet.bytesWritten + action.counted outcome := by
  cases calls with
  | flushed flushes =>
    cases outcome <;> exact flushes.bytesWritten_eq
  | noRoom room => exact room.bytesWritten_eq
  | gathered room inside =>
    rw [← room.bytesWritten_eq]
    exact (Nat.add_assoc _ _ _).symm
  | bypassed room empty long sent => rw [← room.bytesWritten_eq, bytesWritten_sendWhole sent]
  | refused room empty long => exact room.bytesWritten_eq

/-! ## Runs -/

/-- The number of bytes of a call that are with the sink and were not counted: the part that the
sink took of a run that failed on its way past the chunk. -/
def missed (outlet : Outlet) (action : Action) (outcome : Except Error Unit) (next : Outlet) :
    Nat :=
  match outcome with
  | .ok () => 0
  | .error _ => (outlet.gained action outcome next).size

/-- The number of bytes missed in a run of calls. -/
def missedAll : Outlet × Pool UInt8 → List Action → Nat
  | _, [] => 0
  | (outlet, pool), action :: rest =>
    let (outcome, next, pool) := outlet.perform pool action
    outlet.missed action outcome next + missedAll (next, pool) rest

/-- What counts of a call is counted or missed. -/
theorem size_gained (outlet : Outlet) (action : Action) (outcome : Except Error Unit)
    (next : Outlet) :
    (outlet.gained action outcome next).size =
      action.counted outcome + outlet.missed action outcome next := by
  cases outcome with
  | ok => rfl
  | error e => exact (Nat.zero_add _).symm

/-- Nothing is missed of a call that stays within the chunk. -/
theorem missed_eq_zero (short : ∀ run, action = .write run → run.size ≤ outlet.chunkSize)
    (outcome : Except Error Unit) (next : Outlet) :
    outlet.missed action outcome next = 0 := by
  cases outcome with
  | ok => rfl
  | error e =>
    cases action with
    | write run =>
      have fits : ¬ outlet.chunkSize < run.size := Nat.not_lt.mpr (short run rfl)
      simp [missed, gained, fits]
    | add value => rfl
    | span content => rfl
    | flush => rfl

/-- A run of calls adds to the count what counts of them, less what is missed. -/
theorem bytesWritten_run (actions : List Action) :
    ∀ {outlet : Outlet}, outlet.Sound pool → 1 ≤ outlet.chunkSize →
      (run (outlet, pool) actions).1.bytesWritten + missedAll (outlet, pool) actions =
        outlet.bytesWritten + (gainedAll (outlet, pool) actions).size := by
  induction actions with
  | nil =>
    intro outlet _ _
    rfl
  | cons action rest ih =>
    intro outlet sound positive
    obtain ⟨outcome, next, performed, first⟩ := carried_perform sound positive action
    have counted := (calls_of_perform sound positive performed).bytesWritten_eq
    have others := ih first.sound (first.chunkSize_eq ▸ positive)
    have both := outlet.size_gained action outcome next
    unfold run gainedAll missedAll
    simp only [performed, Array.size_append]
    omega

theorem missedAll_eq_zero (actions : List Action) :
    ∀ {outlet : Outlet}, outlet.Sound pool → 1 ≤ outlet.chunkSize →
      (∀ run, .write run ∈ actions → run.size ≤ outlet.chunkSize) →
      missedAll (outlet, pool) actions = 0 := by
  induction actions with
  | nil =>
    intro outlet _ _ _
    rfl
  | cons action rest ih =>
    intro outlet sound positive short
    obtain ⟨outcome, next, performed, first⟩ := carried_perform sound positive action
    have here : outlet.missed action outcome next = 0 := by
      refine missed_eq_zero (fun run same => ?_) outcome next
      exact short run (same ▸ List.mem_cons_self)
    have later : missedAll (next, pool) rest = 0 := by
      refine ih first.sound (first.chunkSize_eq ▸ positive) fun run mem => ?_
      rw [first.chunkSize_eq]
      exact short run (List.mem_cons_of_mem _ mem)
    unfold missedAll
    simp only [performed, here, later]

theorem Sound.size_carried (sound : outlet.Sound pool) :
    outlet.carried.size = outlet.sink.accepted.size + outlet.buffered := by
  rw [carried, Array.size_append, sound.size_written]

theorem flushed_ofConfig {sink : Sink} {config : Config} {first : Outlet} {rest : Pool UInt8}
    (made : ofConfig sink config pool = .ok (first, rest)) : first.flushed = 0 := by
  unfold ofConfig at made
  cases valid : config.validate with
  | error e => simp [valid, bind, Except.bind] at made
  | ok =>
    rw [valid] at made
    cases made
    rfl

/-- Whatever a sink does, the bytes that it accepted are those counted and not held, and those
missed. Unless a run of bytes is longer than the chunk, none are missed, and the count tells exactly
what the sink has. -/
theorem accepted_eq_counted (sink : Sink) {config : Config} {pool : Pool UInt8}
    (positive : 1 ≤ config.chunkSize) (small : config.chunkSize ≤ Size.maxCapacity)
    (reachable : pool.Reachable) (actions : List Action) :
    ∃ first, ofConfig sink config pool = .ok first ∧
      let last := (run first actions).1
      last.sink.accepted.size =
        sink.accepted.size + (last.bytesWritten - last.buffered) + missedAll first actions ∧
      ((∀ run, .write run ∈ actions → run.size ≤ config.chunkSize) →
        last.sink.accepted.size = sink.accepted.size + (last.bytesWritten - last.buffered)) := by
  obtain ⟨first, pool, made, start, same, chunkSize, nothing⟩ :=
    sound_ofConfig sink positive small reachable.sound
  have positive : 1 ≤ first.chunkSize := chunkSize ▸ positive
  obtain ⟨last, performed, after⟩ := carried_run actions start positive
  have counted := bytesWritten_run actions start positive
  simp only [performed] at counted
  have none_sent := flushed_ofConfig made
  have grown := congrArg Array.size after.carried_eq
  rw [Array.size_append, nothing, after.sound.size_carried] at grown
  have empty : first.buffered = 0 := by
    have size := start.size_carried
    rw [nothing, same] at size
    omega
  -- All that counts of the calls is with the sink or in the chunk, and it was counted or missed.
  have balance : last.sink.accepted.size =
      sink.accepted.size + (last.bytesWritten - last.buffered) +
        missedAll (first, pool) actions := by
    have held : last.bytesWritten = last.flushed + last.buffered := rfl
    have start_count : first.bytesWritten = first.flushed + first.buffered := rfl
    omega
  refine ⟨(first, pool), made, ?_⟩
  simp only [performed]
  refine ⟨balance, fun short => ?_⟩
  rw [balance, missedAll_eq_zero actions start positive (chunkSize ▸ short), Nat.add_zero]

/-- A chunk that is sent in two parts, and a run that fails on its way past it. -/
theorem accepted_eq_counted_interrupted :
    let broken : WriteReply := .fail ⟨.brokenPipe, none⟩
    let sink : Sink := { writes := [.accept 1, .acceptAll, .accept 2, broken], flushes := [] }
    let actions := [.span #[1, 2], .add 3, .write #[4, 5, 6], .add 7]
    (Pool.standard : Pool UInt8).Reachable ∧
      ∃ first, ofConfig sink ⟨2⟩ Pool.standard = .ok first ∧
        let last := (run first actions).1
        last.sink.accepted.size =
          sink.accepted.size + (last.bytesWritten - last.buffered) + missedAll first actions := by
  intro broken sink actions
  obtain ⟨first, made, balance, -⟩ := accepted_eq_counted sink
    (by decide : 1 ≤ (Config.mk 2).chunkSize) (by decide) Pool.reachable_standard actions
  exact ⟨Pool.reachable_standard, first, made, balance⟩

/-- Of three bytes that go past a chunk of two, the sink takes two and fails. They are with it and
were not counted. -/
theorem count_behind_sink :
    let sink : Sink := { writes := [.accept 2, .fail ⟨.brokenPipe, none⟩], flushes := [] }
    ∃ first, ofConfig sink ⟨2⟩ Pool.standard = .ok first ∧
      let last := (run first [.write #[1, 2, 3]]).1
      last.sink.accepted.size = 2 ∧ last.bytesWritten - last.buffered = 0 := by
  intro sink
  refine ⟨_, rfl, ?_⟩
  decide +kernel

end PooledBuffers.Stream.Outlet
