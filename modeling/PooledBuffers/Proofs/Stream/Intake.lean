import PooledBuffers.Proofs.Stream.Delivery

/-!
# What an inlet takes in and hands out

Whatever a source does, an inlet hands out the bytes that the source has delivered, in their order,
and has the others of them in its chunk. A call that fails hands nothing out and keeps all that has
arrived.

* `Inlet.Served` — an inlet before and after a call, which hands out the first bytes buffered;
* `Inlet.perform_spec`, `Inlet.run_spec` — one call, and any number of them;
* `Inlet.hands_out_delivered` — from the start of an inlet, after every run of calls.
-/

namespace PooledBuffers.Stream

namespace Inlet

variable {inlet middle last : Inlet}

/-! ## Calls -/

/-- One call of an inlet. -/
inductive Action where
  | ensure (needed : Nat)
  | take (count : Nat)
  | takeByte
  deriving DecidableEq, Repr

/-- The number of bytes that a call hands out if it succeeds. -/
def Action.demand : Action → Nat
  | ensure _ => 0
  | take count => count
  | takeByte => 1

/-- Performs a call and answers what it hands out. -/
def perform (inlet : Inlet) : Action → Except Error (Array UInt8) × Inlet
  | .ensure needed =>
    match inlet.ensure needed with
    | (.ok (), next) => (.ok #[], next)
    | (.error e, next) => (.error e, next)
  | .take count => inlet.take count
  | .takeByte =>
    match inlet.takeByte with
    | (.ok byte, next) => (.ok #[byte], next)
    | (.error e, next) => (.error e, next)

/-- The bytes that a call hands out: none if it fails. -/
def handed (outcome : Except Error (Array UInt8)) : List UInt8 :=
  match outcome with
  | .ok run => run.toList
  | .error _ => []

/-- An inlet before and after a call: of the bytes buffered and those that arrived, the first ones
were handed out and all others are still there. -/
structure Served (inlet : Inlet) (arrived out : List UInt8) (next : Inlet) : Prop where
  sound : next.Sound
  delivers : inlet.source.Delivers arrived next.source
  buffered_eq : out ++ next.buffered.toList = inlet.buffered.toList ++ arrived
  chunkSize_eq : next.chunkSize = inlet.chunkSize
  consumed_eq : next.consumed = inlet.consumed + out.length

theorem Filled.served {arrived : List UInt8} (filled : Filled inlet arrived last) :
    Served inlet arrived [] last :=
  ⟨filled.sound, filled.delivers, filled.buffered_eq, filled.chunkSize_eq, filled.consumed_eq⟩

theorem Served.trans {before after first second : List UInt8}
    (here : Served inlet before first middle) (there : Served middle after second last) :
    Served inlet (before ++ after) (first ++ second) last where
  sound := there.sound
  delivers := here.delivers.trans there.delivers
  buffered_eq := by
    rw [List.append_assoc, there.buffered_eq, ← List.append_assoc, here.buffered_eq,
      List.append_assoc]
  chunkSize_eq := there.chunkSize_eq.trans here.chunkSize_eq
  consumed_eq := by rw [there.consumed_eq, here.consumed_eq, List.length_append, Nat.add_assoc]

/-- Bytes handed out of the chunk are the first ones buffered. -/
theorem served_advance (sound : inlet.Sound) {count : Nat} (enough : count ≤ inlet.available) :
    Served inlet [] (inlet.chunk.physical.extract inlet.start (inlet.start + count)).toList
      { inlet with start := inlet.start + count, consumed := inlet.consumed + count } ∧
    (inlet.chunk.physical.extract inlet.start (inlet.start + count)).size = count := by
  have order := sound.start_le
  have inside := sound.stop_le_size
  unfold available at enough
  have size : (inlet.chunk.physical.extract inlet.start (inlet.start + count)).size = count := by
    rw [Array.size_extract]
    omega
  refine ⟨⟨⟨sound.fits, ?_, sound.stop_le⟩, .refl _, ?_, rfl, ?_⟩, size⟩
  · show inlet.start + count ≤ inlet.stop
    omega
  · show _ ++ (inlet.chunk.physical.extract (inlet.start + count) inlet.stop).toList = _
    rw [List.append_nil, ← Array.toList_append, Array.extract_append_extract,
      Nat.min_eq_left (by omega), Nat.max_eq_right (by omega), buffered]
  · rw [Array.length_toList, size]

theorem ensure_served (sound : inlet.Sound) (needed : Nat) :
    ∃ arrived, Served inlet arrived (handed (inlet.perform (.ensure needed)).1)
      (inlet.perform (.ensure needed)).2 := by
  obtain ⟨⟨arrived, filled⟩, -⟩ := ensure_spec sound needed
  refine ⟨arrived, ?_⟩
  rcases answered : inlet.ensure needed with ⟨outcome, next⟩
  rw [answered] at filled
  simp only [perform, answered]
  cases outcome with
  | ok done => exact filled.served
  | error e => exact filled.served

theorem take_served (sound : inlet.Sound) (count : Nat) :
    (∃ arrived, Served inlet arrived (handed (inlet.take count).1) (inlet.take count).2) ∧
      ∀ run, (inlet.take count).1 = .ok run → run.size = count := by
  obtain ⟨⟨arrived, filled⟩, buffered⟩ := ensure_spec sound count
  unfold take
  rcases answered : inlet.ensure count with ⟨outcome, next⟩
  rw [answered] at filled buffered
  cases outcome with
  | ok done =>
    obtain ⟨out, size⟩ := served_advance filled.sound (buffered rfl)
    have both := filled.served.trans out
    rw [List.append_nil] at both
    refine ⟨⟨arrived, both⟩, ?_⟩
    rintro run ⟨rfl⟩
    exact size
  | error e => exact ⟨⟨arrived, filled.served⟩, by simp⟩

/-- Taking a byte is taking a run of one. -/
theorem perform_takeByte (sound : inlet.Sound) :
    inlet.perform .takeByte = inlet.perform (.take 1) := by
  obtain ⟨⟨arrived, filled⟩, enough⟩ := ensure_spec sound 1
  rcases answered : inlet.ensure 1 with ⟨outcome, next⟩
  rw [answered] at filled enough
  simp only [perform, takeByte, take, answered]
  cases outcome with
  | error e => rfl
  | ok done =>
    have some_byte : 1 ≤ next.stop - next.start := enough rfl
    have inside : next.stop ≤ next.chunk.physical.size := filled.sound.stop_le_size
    have first : next.chunk.physical.extract next.start (next.start + 1) =
        #[next.chunk.physical.getD next.start 0] := by
      rw [Array.extract_succ_right (Nat.lt_succ_self _) (by omega),
        Array.extract_eq_empty_of_le (Nat.min_le_left _ _), Array.getD_eq_getD_getElem?,
        Array.getElem?_eq_getElem]
      rfl
    simp only [first]

/-- A call hands out the first of the bytes buffered and arrived, and keeps all others. -/
theorem perform_spec (sound : inlet.Sound) (action : Action) :
    (∃ arrived, Served inlet arrived (handed (inlet.perform action).1) (inlet.perform action).2) ∧
      ∀ run, (inlet.perform action).1 = .ok run → run.size = action.demand := by
  cases action with
  | ensure needed =>
    refine ⟨ensure_served sound needed, ?_⟩
    rcases answered : inlet.ensure needed with ⟨outcome, next⟩
    simp only [perform, answered]
    cases outcome with
    | ok done =>
      rintro run ⟨rfl⟩
      rfl
    | error e => simp
  | take count => exact take_served sound count
  | takeByte =>
    rw [perform_takeByte sound]
    exact take_served sound 1

/-! ## Runs -/

/-- Performs calls one after the other, whatever their outcomes. -/
def run : Inlet → List Action → Inlet
  | inlet, [] => inlet
  | inlet, action :: rest => run (inlet.perform action).2 rest

/-- The bytes handed out by the calls of a run, in their order. -/
def handedAll : Inlet → List Action → List UInt8
  | _, [] => []
  | inlet, action :: rest =>
    handed (inlet.perform action).1 ++ handedAll (inlet.perform action).2 rest

theorem run_spec (actions : List Action) :
    ∀ {inlet : Inlet}, inlet.Sound →
      ∃ arrived, Served inlet arrived (handedAll inlet actions) (run inlet actions) := by
  induction actions with
  | nil =>
    intro inlet sound
    exact ⟨[], (Filled.refl sound).served⟩
  | cons action rest ih =>
    intro inlet sound
    -- A call leaves a sound inlet, also where it fails, so that the run goes on from there.
    obtain ⟨first, here⟩ := (perform_spec sound action).1
    obtain ⟨later, there⟩ := ih here.sound
    exact ⟨_, here.trans there⟩

/-- Whatever a source does, the bytes that an inlet has handed out and those it still has are
together the bytes that the source delivered, in their order. At any such moment, a call that fails
hands nothing out and keeps what was there and what has arrived; one that succeeds hands out as many
bytes as it was asked for, and keeps the others. -/
theorem hands_out_delivered (source : Source) {config : Config} {pool : Pool UInt8}
    (positive : 1 ≤ config.chunkSize) (reachable : pool.Reachable) (actions : List Action) :
    ∃ first rest, ofConfig source config pool = .ok (first, rest) ∧
      let last := run first actions
      (∃ delivered, source.Delivers delivered last.source ∧
        handedAll first actions ++ last.buffered.toList = delivered) ∧
      last.consumed = (handedAll first actions).length ∧
      last.start ≤ last.stop ∧ last.stop ≤ config.chunkSize ∧
      ∀ action, ∃ arrived, last.source.Delivers arrived (last.perform action).2.source ∧
        match last.perform action with
        | (.error _, next) =>
          next.buffered.toList = last.buffered.toList ++ arrived ∧ next.consumed = last.consumed
        | (.ok run, next) =>
          run.size = action.demand ∧ next.consumed = last.consumed + run.size ∧
            run.toList ++ next.buffered.toList = last.buffered.toList ++ arrived := by
  obtain ⟨first, rest, made, start, source_eq, chunkSize, ahead, consumed⟩ :=
    sound_ofConfig source positive reachable.sound
  have nothing : first.buffered.toList = [] := by
    rw [Inlet.ahead, source_eq] at ahead
    exact List.append_left_eq_self.1 ahead
  obtain ⟨delivered, served⟩ := run_spec actions start
  have order := served.sound.start_le
  have inside := served.sound.stop_le
  rw [served.chunkSize_eq, chunkSize] at inside
  refine ⟨first, rest, made, ⟨delivered, source_eq ▸ served.delivers, ?_⟩, ?_, order, inside, ?_⟩
  · rw [served.buffered_eq, nothing, List.nil_append]
  · rw [served.consumed_eq, consumed, Nat.zero_add]
  · intro action
    obtain ⟨⟨arrived, answer⟩, size⟩ := perform_spec served.sound action
    refine ⟨arrived, answer.delivers, ?_⟩
    rcases performed : (run first actions).perform action with ⟨outcome, next⟩
    rw [performed] at answer size
    cases outcome with
    | error e => exact ⟨answer.buffered_eq, answer.consumed_eq⟩
    | ok run =>
      have count := answer.consumed_eq
      refine ⟨size run rfl, ?_, answer.buffered_eq⟩
      rwa [handed, Array.length_toList] at count

/-- A source that says it is at its end between two runs of bytes, is interrupted and fails: the
calls that fail are made again, and every byte is in its place. -/
theorem hands_out_delivered_broken :
    let source : Source :=
      { replies := [.data [1, 2, 3], .eof, .fail ⟨.interrupted, none⟩, .data [4],
          .fail ⟨.timedOut, none⟩, .data [5, 6, 7, 8, 9]] }
    let actions := [.take 2, .take 4, .ensure 9, .take 4, .take 4, .takeByte]
    (Pool.standard : Pool UInt8).Reachable ∧
      ∃ first rest, ofConfig source ⟨4⟩ Pool.standard = .ok (first, rest) ∧
        handedAll first actions ++ (run first actions).buffered.toList ++
          (run first actions).source.pending = [1, 2, 3, 4, 5, 6, 7, 8, 9] := by
  intro source actions
  obtain ⟨first, rest, made, ⟨delivered, arrived, split⟩, -⟩ :=
    hands_out_delivered source (by decide : 1 ≤ (Config.mk 4).chunkSize) Pool.reachable_standard
      actions
  refine ⟨Pool.reachable_standard, first, rest, made, ?_⟩
  rw [split, ← arrived.pending_eq]
  rfl

end Inlet

end PooledBuffers.Stream
