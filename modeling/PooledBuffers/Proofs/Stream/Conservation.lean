import PooledBuffers.Proofs.Writer.Operations
import PooledBuffers.Stream.Outlet

/-!
# No byte is lost between an outlet and its sink

A sink may accept any part of what it is offered, accept nothing, be interrupted, or fail, in each
of its calls. What it accepted, followed by what the outlet still holds, is at any time what the
operations that succeeded were given, in order; of a run that went past the chunk and failed, it
is the part that the sink took.

* `Sink.send_spec` — offering a run until it is accepted;
* `Outlet.Sound` — the chunk has its length, and what is gathered fits into it;
* `Outlet.flush_spec`, `Outlet.Kept` — a flush passes on a part from the front and keeps the rest;
* `Outlet.carried_perform` — one operation; `Outlet.conserves` — runs, retries, and the end.
-/

namespace PooledBuffers.Stream

open PooledBuffers

/-! ## Offering bytes to a sink -/

namespace Sink

theorem next_le {length count : Nat} {writes rest : List WriteReply}
    (h : next length writes = (.ok count, rest)) : count ≤ length := by
  unfold next at h
  split at h <;> simp only [Prod.mk.injEq, Except.ok.injEq, reduceCtorEq, false_and] at h <;> omega

/-- A sink accepts from the front of what it is offered, and nothing where it fails. -/
theorem write_spec {sink rest : Sink} {bytes : Array UInt8} {outcome : Except IoFault Nat}
    (h : sink.write bytes = (outcome, rest)) :
    match outcome with
    | .ok count => count ≤ bytes.size ∧ rest.accepted = sink.accepted ++ bytes.extract 0 count
    | .error _ => rest.accepted = sink.accepted := by
  unfold write at h
  rcases replied : next bytes.size sink.writes with ⟨reply, writes⟩
  rw [replied] at h
  cases reply with
  | ok count =>
    simp only [Prod.mk.injEq] at h
    obtain ⟨rfl, rfl⟩ := h
    exact ⟨next_le replied, rfl⟩
  | error fault =>
    simp only [Prod.mk.injEq] at h
    obtain ⟨rfl, rfl⟩ := h
    rfl

/-- What a sink did when a run was offered from `sent` on: it took the bytes up to `total`. -/
structure Took (sink : Sink) (bytes : Array UInt8) (sent total : Nat)
    (outcome : Except IoFault Unit) (rest : Sink) : Prop where
  sent_le : sent ≤ total
  total_le : total ≤ bytes.size
  accepted_eq : rest.accepted = sink.accepted ++ bytes.extract sent total
  whole : outcome = .ok () → total = bytes.size

theorem took_nothing {sink rest : Sink} {bytes : Array UInt8} {sent : Nat}
    {outcome : Except IoFault Unit} (inside : sent ≤ bytes.size)
    (same : rest.accepted = sink.accepted) (whole : outcome = .ok () → sent = bytes.size) :
    Took sink bytes sent sent outcome rest := by
  have nothing : bytes.extract sent sent = #[] :=
    Array.extract_eq_empty_of_le (Nat.min_le_left _ _)
  exact ⟨Nat.le_refl _, inside, by rw [same, nothing, Array.append_empty], whole⟩

/-- A sink takes a part from the front; all of it, unless it fails. -/
theorem send_spec (sink : Sink) (bytes : Array UInt8) (onZero : IoFault) (sent : Nat)
    (inside : sent ≤ bytes.size) :
    Took sink bytes sent (sink.send bytes onZero sent).1 (sink.send bytes onZero sent).2.1
      (sink.send bytes onZero sent).2.2 := by
  fun_induction Sink.send sink bytes onZero sent with
  | case1 sink sent below rest written =>
    have spec := write_spec written
    simp only [Array.extract_zero, Array.append_empty] at spec
    exact took_nothing inside spec.2 (by simp)
  | case2 sink sent below count rest written _ ih =>
    have spec := write_spec written
    rw [Array.size_extract] at spec
    have later := ih (by omega)
    -- What this call took and what the later ones take are one stretch of the run.
    refine ⟨Nat.le_trans (Nat.le_add_right _ _) later.sent_le, later.total_le, ?_, later.whole⟩
    have first : (bytes.extract sent bytes.size).extract 0 (count + 1) =
        bytes.extract sent (sent + (count + 1)) := by
      rw [Array.extract_extract]
      congr 1
      omega
    rw [later.accepted_eq, spec.2, first, Array.append_assoc, Array.extract_append_extract,
      Nat.min_eq_left (Nat.le_add_right _ _), Nat.max_eq_right later.sent_le]
  | case3 sink sent below fault rest written _ interrupted ih =>
    have same : rest.accepted = sink.accepted := write_spec written
    have later := ih inside
    exact { later with accepted_eq := by rw [later.accepted_eq, same] }
  | case4 sink sent below fault rest written _ failed =>
    have same : rest.accepted = sink.accepted := write_spec written
    exact took_nothing inside same (by simp)
  | case5 sink sent done =>
    exact took_nothing inside rfl (by omega)

theorem accepted_flush (sink : Sink) : sink.flush.2.accepted = sink.accepted := by
  unfold flush
  split <;> rfl

end Sink

/-! ## Outlets -/

namespace Outlet

/-- The chunk has the length that the outlet was made with, and what is gathered fits into it. -/
structure Sound (outlet : Outlet) (pool : Pool UInt8) : Prop where
  fits : outlet.chunk.Fits
  pool_sound : pool.Sound
  capacity_eq : outlet.chunk.capacity = outlet.chunkSize
  buffered_le : outlet.buffered ≤ outlet.chunkSize
  small : outlet.chunkSize ≤ Size.maxCapacity

/-- What the sink accepted, and behind it what the outlet holds. -/
def carried (outlet : Outlet) : Array UInt8 :=
  outlet.sink.accepted ++ outlet.chunk.written

variable {outlet : Outlet} {pool : Pool UInt8}

theorem Sound.shows (sound : outlet.Sound pool) :
    Writer.Shows (outlet.chunk, pool) outlet.chunk.tape outlet.buffered outlet.chunkSize :=
  ⟨sound.fits, sound.pool_sound, rfl, rfl, Nat.le_of_eq sound.capacity_eq.symm⟩

theorem Sound.size_written (sound : outlet.Sound pool) :
    outlet.chunk.written.size = outlet.buffered := by
  rw [sound.shows.written_eq sound.buffered_le, Tape.size_stretch]

theorem Sound.extract_written (sound : outlet.Sound pool) :
    outlet.chunk.written.extract 0 outlet.buffered = outlet.chunk.written := by
  rw [← sound.size_written, Array.extract_size]

theorem Sound.room (sound : outlet.Sound pool) {count : Nat}
    (inside : outlet.buffered + count ≤ outlet.chunkSize) :
    outlet.chunk.position + count ≤ outlet.chunk.capacity := by
  rw [sound.capacity_eq]
  exact inside

/-- An outlet is sound if its chunk shows some tape and its cursor lies in it. -/
theorem sound_of_shows {tape : Tape UInt8} {position : Nat}
    (shows : Writer.Shows (outlet.chunk, pool) tape position outlet.chunkSize)
    (cursor : position ≤ outlet.chunkSize)
    (capacity : outlet.chunk.capacity = outlet.chunkSize)
    (small : outlet.chunkSize ≤ Size.maxCapacity) : outlet.Sound pool :=
  ⟨shows.fits, shows.sound, capacity, Nat.le_trans (Nat.le_of_eq shows.position_eq) cursor, small⟩

/-- With a chunk within the bound on growth, nothing is too much to be counted. -/
theorem Sound.needsFlushing_iff (sound : outlet.Sound pool) (addition : Nat) :
    outlet.needsFlushing addition = true ↔ outlet.chunkSize < addition + outlet.buffered := by
  have small : outlet.chunkSize < Size.top := Nat.lt_of_le_of_lt sound.small (by decide)
  unfold needsFlushing Size.add buffered
  rw [decide_eq_true_iff]
  omega

/-! ## Flushing -/

/-- What a flush leaves behind: the first `sent` bytes gathered are with the sink, the others are
in the chunk. -/
structure Kept (outlet : Outlet) (sent : Nat) (next : Outlet) : Prop where
  sent_le : sent ≤ outlet.buffered
  accepted_eq : next.sink.accepted = outlet.sink.accepted ++ outlet.chunk.written.extract 0 sent
  written_eq : next.chunk.written = outlet.chunk.written.extract sent outlet.buffered
  chunkSize_eq : next.chunkSize = outlet.chunkSize

theorem Kept.carried_eq (sound : outlet.Sound pool) {sent : Nat} {next : Outlet}
    (kept : Kept outlet sent next) : next.carried = outlet.carried := by
  rw [carried, kept.accepted_eq, kept.written_eq, Array.append_assoc,
    Array.extract_append_extract, Nat.min_eq_left (Nat.zero_le _),
    Nat.max_eq_right kept.sent_le, sound.extract_written, carried]

/-- Taking out what was sent from the front keeps the rest, in order. -/
theorem drain_spec (sound : outlet.Sound pool) {sent : Nat} (inside : sent ≤ outlet.buffered) :
    ∃ next, outlet.drain sent pool = (.ok (), next, pool) ∧ next.Sound pool ∧
      next.sink = outlet.sink ∧ next.chunkSize = outlet.chunkSize ∧
      next.chunk.written = outlet.chunk.written.extract sent outlet.buffered := by
  unfold drain
  by_cases none_sent : sent = 0
  · subst none_sent
    rw [if_pos rfl]
    exact ⟨outlet, rfl, sound, rfl, rfl, sound.extract_written.symm⟩
  · rw [if_neg none_sent]
    have shows := sound.shows
    have before := sound.buffered_le
    have source : sent + (outlet.buffered - sent) ≤ outlet.chunkSize := by omega
    obtain ⟨chunk, moved, result, capacity⟩ := shows.moveToFront source
      (Nat.le_trans (Nat.le_of_eq sound.capacity_eq) sound.small)
    have placed : chunk.setPosition (outlet.chunk.position - sent) =
        .ok { chunk with position := outlet.chunk.position - sent } := by
      unfold Writer.setPosition
      rw [capacity, sound.capacity_eq, if_neg (by show ¬ _ < outlet.buffered - sent; omega)]
    have final := result.at (outlet.buffered - sent)
    simp only [buffered] at moved final
    simp only [moved, placed]
    refine ⟨_, rfl, sound_of_shows final ?_ ?_ sound.small, rfl, rfl, ?_⟩
    · show outlet.buffered - sent ≤ outlet.chunkSize
      omega
    · exact capacity.trans sound.capacity_eq
    · show Writer.written { chunk with position := outlet.chunk.position - sent } = _
      have moved := outlet.chunk.tape.stretch_move sent 0
        (Nat.le_of_eq (Nat.zero_add (outlet.buffered - sent)))
      rw [final.written_eq (by show outlet.buffered - sent ≤ _; omega),
        shows.written_eq before, Tape.extract_stretch _ (Nat.le_refl _), Nat.zero_add]
      exact moved

/-- The outlet after its sink accepted all that was gathered and was asked to hand it on. -/
def emptied (outlet : Outlet) (sink : Sink) : Outlet :=
  { outlet with
    sink := sink
    chunk := outlet.chunk.reset
    flushed := outlet.flushed + outlet.chunk.position }

theorem Sound.emptied (sound : outlet.Sound pool) (sink : Sink) :
    (outlet.emptied sink).Sound pool :=
  { sound with buffered_le := Nat.zero_le _ }

/-- Where the sink accepted everything, nothing is kept. -/
theorem kept_emptied (sound : outlet.Sound pool) {sink : Sink}
    (accepted : sink.accepted = outlet.sink.accepted ++ outlet.chunk.written) :
    Kept outlet outlet.buffered (outlet.emptied sink) := by
  refine ⟨Nat.le_refl _, ?_, ?_, rfl⟩
  · rw [sound.extract_written]
    exact accepted
  · rw [Array.extract_eq_empty_of_le (Nat.min_le_left _ _)]
    exact Array.eq_empty_of_size_eq_zero (sound.emptied sink).size_written

theorem Kept.refl (sound : outlet.Sound pool) : Kept outlet 0 outlet :=
  ⟨Nat.zero_le _, by simp, sound.extract_written.symm, rfl⟩

/-- A flush sends a part from the front, and all of it if it succeeds; what it could not send
stays. It rents nothing. -/
theorem flush_spec (sound : outlet.Sound pool) :
    ∃ outcome next sent, outlet.flush pool = (outcome, next, pool) ∧ next.Sound pool ∧
      Kept outlet sent next ∧ (outcome = .ok () → next.buffered = 0) := by
  have size := sound.size_written
  unfold flush
  by_cases nothing : outlet.chunk.position = 0
  · rw [if_pos nothing]
    exact ⟨_, outlet, 0, rfl, sound, .refl sound, fun _ => nothing⟩
  · rw [if_neg nothing]
    have took := outlet.sink.send_spec outlet.chunk.written nothingAccepted 0 (Nat.zero_le _)
    rcases offered : outlet.sink.send outlet.chunk.written nothingAccepted 0 with
      ⟨sent, outcome, sink⟩
    rw [offered] at took
    cases outcome with
    | error fault =>
      -- The rest moves to the front, so that the next flush starts with the first byte not taken.
      have inside : sent ≤ outlet.buffered := size ▸ took.total_le
      have waiting : Outlet.Sound { outlet with sink := sink } pool := { sound with }
      obtain ⟨next, drained, after, sink_eq, chunkSize_eq, written_eq⟩ :=
        drain_spec waiting inside
      simp only [drained]
      refine ⟨_, next, sent, rfl, after, ⟨inside, ?_, written_eq, chunkSize_eq⟩, by simp⟩
      rw [sink_eq]
      exact took.accepted_eq
    | ok =>
      -- Whether the sink can hand them on or not, the bytes are its own now.
      rcases flushed : sink.flush with ⟨outcome, rest⟩
      have accepted : rest.accepted = outlet.sink.accepted ++ outlet.chunk.written := by
        have same := sink.accepted_flush
        rw [flushed] at same
        rw [same, took.accepted_eq, took.whole rfl, Array.extract_size]
      have kept := kept_emptied sound accepted
      simp only [flushed]
      cases outcome with
      | ok => exact ⟨_, _, _, rfl, sound.emptied rest, kept, fun _ => rfl⟩
      | error fault => exact ⟨_, _, _, rfl, sound.emptied rest, kept, fun _ => rfl⟩

/-! ## Adding bytes -/

/-- What a call leaves behind: a sound outlet that carries `gained` in addition. -/
structure Gained (outlet : Outlet) (gained : Array UInt8) (next : Outlet) (pool : Pool UInt8) :
    Prop where
  sound : next.Sound pool
  chunkSize_eq : next.chunkSize = outlet.chunkSize
  carried_eq : next.carried = outlet.carried ++ gained

theorem Gained.trans {middle last : Outlet} {first second : Array UInt8}
    (before : Gained outlet first middle pool) (after : Gained middle second last pool) :
    Gained outlet (first ++ second) last pool :=
  ⟨after.sound, after.chunkSize_eq.trans before.chunkSize_eq, by
    rw [after.carried_eq, before.carried_eq, Array.append_assoc]⟩

/-- Making room loses nothing. Where it succeeds, the addition fits, or the chunk is empty. -/
theorem makeRoom_spec (sound : outlet.Sound pool) (addition : Nat) :
    ∃ outcome next, outlet.makeRoom addition pool = (outcome, next, pool) ∧
      Gained outlet #[] next pool ∧
      (outcome = .ok () → addition + next.buffered ≤ next.chunkSize ∨ next.buffered = 0) := by
  unfold makeRoom
  by_cases full : outlet.needsFlushing addition = true
  · rw [if_pos full]
    obtain ⟨outcome, next, sent, flushed, after, kept, emptied⟩ := flush_spec sound
    refine ⟨outcome, next, flushed, ⟨after, kept.chunkSize_eq, ?_⟩, fun ok => .inr (emptied ok)⟩
    rw [kept.carried_eq sound, Array.append_empty]
  · rw [if_neg full]
    have fits := mt (sound.needsFlushing_iff addition).2 full
    exact ⟨.ok (), outlet, rfl, ⟨sound, rfl, by rw [Array.append_empty]⟩, fun _ => .inl (by omega)⟩

/-- A run that fits into the chunk is carried behind what was there. -/
theorem stamp_spec (sound : outlet.Sound pool) {run : Array UInt8}
    (inside : outlet.buffered + run.size ≤ outlet.chunkSize) :
    Gained outlet run { outlet with chunk := outlet.chunk.stamp run } pool := by
  have stamped := sound.shows.stamp inside
  refine ⟨sound_of_shows stamped inside ?_ sound.small, rfl, ?_⟩
  · exact (Writer.capacity_stamp _ _).trans sound.capacity_eq
  · rw [carried, sound.shows.written_stamp inside, ← Array.append_assoc, carried]

/-- A run sent past an empty chunk is carried as far as the sink took it. -/
theorem sendWhole_spec (sound : outlet.Sound pool) (empty : outlet.buffered = 0)
    (run : Array UInt8) :
    ∃ outcome next, outlet.sendWhole run = (outcome, next) ∧
      Gained outlet (run.extract 0 (next.sink.accepted.size - outlet.carried.size)) next pool ∧
      (outcome = .ok () → next.sink.accepted.size - outlet.carried.size = run.size) := by
  have nothing : outlet.chunk.written = #[] :=
    Array.eq_empty_of_size_eq_zero (sound.size_written.trans empty)
  have took := outlet.sink.send_spec run wholeRunFailed 0 (Nat.zero_le _)
  unfold sendWhole
  rcases offered : outlet.sink.send run wholeRunFailed 0 with ⟨sent, outcome, sink⟩
  rw [offered] at took
  have inside : sent ≤ run.size := took.total_le
  have accepted : sink.accepted = outlet.sink.accepted ++ run.extract 0 sent := took.accepted_eq
  have count : sink.accepted.size - outlet.carried.size = sent := by
    rw [accepted, carried, nothing, Array.append_empty, Array.size_append, Array.size_extract]
    omega
  have carries (flushed : Nat) :
      Gained outlet (run.extract 0 (sink.accepted.size - outlet.carried.size))
        { outlet with sink := sink, flushed := flushed } pool := by
    refine ⟨{ sound with }, rfl, ?_⟩
    rw [count, carried, carried, nothing, accepted, Array.append_empty, Array.append_empty]
  cases outcome with
  | ok => exact ⟨_, _, rfl, carries _, fun _ => count.trans (took.whole rfl)⟩
  | error fault => exact ⟨_, _, rfl, carries _, by simp⟩

/-! ## Calls -/

/-- One call of an outlet. -/
inductive Action where
  | write (run : Array UInt8)
  | add (value : UInt8)
  /-- Room for as many bytes as there are in `content`, filled with it. -/
  | span (content : Array UInt8)
  | flush
  deriving DecidableEq, Repr

/-- The bytes that a call is given. -/
def Action.payload : Action → Array UInt8
  | write run => run
  | add value => #[value]
  | span content => content
  | flush => #[]

/-- Performs a call. -/
def perform (outlet : Outlet) (pool : Pool UInt8) :
    Action → Except Error Unit × Outlet × Pool UInt8
  | .write run => outlet.write run pool
  | .add value => outlet.add value pool
  | .span content =>
    match outlet.acquire content.size content pool with
    | (.ok _, state) => (.ok (), state)
    | (.error e, state) => (.error e, state)
  | .flush => outlet.flush pool

/-- What is carried of a call: its payload if it succeeds. Of a run longer than the chunk that
fails, it is the part that the sink took, which is what the sink has then beyond all that was
carried before. -/
def gained (outlet : Outlet) (action : Action) (outcome : Except Error Unit) (next : Outlet) :
    Array UInt8 :=
  match outcome, action with
  | .ok (), action => action.payload
  | .error _, .write run =>
    if outlet.chunkSize < run.size then
      run.extract 0 (next.sink.accepted.size - outlet.carried.size)
    else #[]
  | .error _, _ => #[]

theorem write_spec (sound : outlet.Sound pool) (run : Array UInt8) :
    ∃ outcome next, outlet.write run pool = (outcome, next, pool) ∧
      Gained outlet (outlet.gained (.write run) outcome next) next pool := by
  obtain ⟨outcome, middle, made, before, room⟩ := makeRoom_spec sound run.size
  have carried_eq : middle.carried = outlet.carried :=
    before.carried_eq.trans (Array.append_empty)
  unfold write
  simp only [made]
  cases outcome with
  | error e =>
    -- The sink has only bytes that were carried before, so nothing of the run counts as taken.
    have none_taken : middle.sink.accepted.size - outlet.carried.size = 0 := by
      rw [← carried_eq, carried, Array.size_append]
      omega
    refine ⟨_, _, rfl, ?_⟩
    simpa [gained, none_taken] using before
  | ok done =>
    cases done
    by_cases long : middle.chunkSize < run.size
    · -- The run goes past the chunk, which has to be empty for the order to be kept.
      have empty : middle.buffered = 0 := by
        rcases room rfl with fits | empty
        · omega
        · exact empty
      obtain ⟨outcome, next, sent, after, whole⟩ := sendWhole_spec before.sound empty run
      simp only [long, ↓reduceIte, sent]
      refine ⟨outcome, next, rfl, ?_⟩
      have both := before.trans after
      rw [Array.empty_append, carried_eq] at both
      cases outcome with
      | ok =>
        have all := whole rfl
        rw [carried_eq] at all
        rwa [all, Array.extract_size] at both
      | error e =>
        rw [before.chunkSize_eq] at long
        simpa [gained, long] using both
    · have fits : middle.buffered + run.size ≤ middle.chunkSize := by
        rcases room rfl with fits | empty <;> omega
      simp only [long, ↓reduceIte, Writer.appendRun_of_le (before.sound.room fits)]
      refine ⟨_, _, rfl, ?_⟩
      simpa [gained, Action.payload] using before.trans (stamp_spec before.sound fits)

theorem add_spec (sound : outlet.Sound pool) (positive : 1 ≤ outlet.chunkSize) (value : UInt8) :
    ∃ outcome next, outlet.add value pool = (outcome, next, pool) ∧
      Gained outlet (outlet.gained (.add value) outcome next) next pool := by
  obtain ⟨outcome, middle, made, before, room⟩ := makeRoom_spec sound 1
  unfold add
  simp only [made]
  cases outcome with
  | error e => exact ⟨_, _, rfl, before⟩
  | ok done =>
    cases done
    have fits : middle.buffered + (#[value] : Array UInt8).size ≤ middle.chunkSize := by
      have same := before.chunkSize_eq
      show middle.buffered + 1 ≤ middle.chunkSize
      rcases room rfl with fits | empty <;> omega
    simp only [Writer.append_of_le (before.sound.room fits)]
    refine ⟨_, _, rfl, ?_⟩
    simpa [gained, Action.payload] using before.trans (stamp_spec before.sound fits)

theorem span_spec (sound : outlet.Sound pool) (content : Array UInt8) :
    ∃ outcome next, outlet.perform pool (.span content) = (outcome, next, pool) ∧
      Gained outlet (outlet.gained (.span content) outcome next) next pool := by
  obtain ⟨outcome, middle, made, before, room⟩ := makeRoom_spec sound content.size
  unfold perform acquire
  simp only [made]
  cases outcome with
  | error e => exact ⟨_, _, rfl, before⟩
  | ok done =>
    cases done
    by_cases full : middle.needsFlushing content.size = true
    · -- Refused after the flush: nothing of it counts.
      simp only [full, ↓reduceIte]
      exact ⟨_, _, rfl, before⟩
    · have fits := mt (before.sound.needsFlushing_iff content.size).2 full
      have inside : middle.buffered + content.size ≤ middle.chunkSize := by omega
      have acquired : (middle.chunk.acquire content.size true content pool).2 =
          (middle.chunk.stamp content, pool) :=
        Writer.acquire_of_le (before.sound.room inside)
      rcases taken : middle.chunk.acquire content.size true content pool with
        ⟨handed, chunk, rest⟩
      rw [taken] at acquired
      obtain ⟨rfl, rfl⟩ := Prod.mk.inj acquired
      simp only [full, Bool.false_eq_true, ↓reduceIte, taken]
      refine ⟨_, _, rfl, ?_⟩
      simpa [gained, Action.payload] using before.trans (stamp_spec before.sound inside)

/-- A call adds to the bytes carried what counts of it, and nothing else. -/
theorem carried_perform (sound : outlet.Sound pool) (positive : 1 ≤ outlet.chunkSize)
    (action : Action) :
    ∃ outcome next, outlet.perform pool action = (outcome, next, pool) ∧
      Gained outlet (outlet.gained action outcome next) next pool := by
  cases action with
  | write run => exact write_spec sound run
  | add value => exact add_spec sound positive value
  | span content => exact span_spec sound content
  | flush =>
    obtain ⟨outcome, next, sent, flushed, after, kept, _⟩ := flush_spec sound
    refine ⟨outcome, next, flushed, after, kept.chunkSize_eq, ?_⟩
    have nothing : outlet.gained .flush outcome next = #[] := by
      cases outcome <;> rfl
    rw [kept.carried_eq sound, nothing, Array.append_empty]

/-! ## Runs -/

/-- Performs calls one after the other, whatever their outcomes. -/
def run : Outlet × Pool UInt8 → List Action → Outlet × Pool UInt8
  | state, [] => state
  | (outlet, pool), action :: rest => run (outlet.perform pool action).2 rest

/-- What counts of the calls of a run, in their order. -/
def gainedAll : Outlet × Pool UInt8 → List Action → Array UInt8
  | _, [] => #[]
  | (outlet, pool), action :: rest =>
    let (outcome, next, pool) := outlet.perform pool action
    outlet.gained action outcome next ++ gainedAll (next, pool) rest

theorem carried_run (actions : List Action) :
    ∀ {outlet : Outlet}, outlet.Sound pool → 1 ≤ outlet.chunkSize →
      ∃ last, run (outlet, pool) actions = (last, pool) ∧
        Gained outlet (gainedAll (outlet, pool) actions) last pool := by
  induction actions with
  | nil =>
    intro outlet sound _
    exact ⟨outlet, rfl, sound, rfl, Array.append_empty.symm⟩
  | cons action rest ih =>
    intro outlet sound positive
    obtain ⟨outcome, next, performed, first⟩ := carried_perform sound positive action
    -- A call leaves a sound outlet whatever its outcome, so that the run goes on from there.
    obtain ⟨last, others, after⟩ := ih first.sound (first.chunkSize_eq ▸ positive)
    unfold run gainedAll
    simp only [performed]
    exact ⟨last, others, first.trans after⟩

theorem sound_ofConfig (sink : Sink) {config : Config} (positive : 1 ≤ config.chunkSize)
    (small : config.chunkSize ≤ Size.maxCapacity) (sound : pool.Sound) :
    ∃ first rest, ofConfig sink config pool = .ok (first, rest) ∧ first.Sound rest ∧
      first.sink = sink ∧ first.chunkSize = config.chunkSize ∧
      first.carried = sink.accepted := by
  have made := Writer.shows_withCapacity sound config.chunkSize none
  have blank : Outlet.Sound (ofValid sink config pool).1 (ofValid sink config pool).2 :=
    ⟨made.fits, made.sound, rfl, Nat.zero_le _, small⟩
  refine ⟨(ofValid sink config pool).1, (ofValid sink config pool).2, ?_, blank, rfl, rfl, ?_⟩
  · rw [ofConfig, Config.validate, if_neg (by omega)]
    rfl
  · rw [carried, Array.eq_empty_of_size_eq_zero blank.size_written, Array.append_empty]
    rfl

/-- Whatever a sink does, what it accepted and what the outlet still holds are together what
counts of all calls so far. At any such moment, a flush passes on a part from the front of the
chunk and keeps the rest, all of it if it succeeds; and an outlet closed without a failure has
sent everything. -/
theorem conserves (sink : Sink) {config : Config} {pool : Pool UInt8}
    (positive : 1 ≤ config.chunkSize) (small : config.chunkSize ≤ Size.maxCapacity)
    (reachable : pool.Reachable) (actions : List Action) :
    ∃ first, ofConfig sink config pool = .ok first ∧
      let total := sink.accepted ++ gainedAll first actions
      let last := run first actions
      last.1.carried = total ∧
      (∃ outcome next sent, last.1.flush last.2 = (outcome, next, last.2) ∧
        Kept last.1 sent next ∧ (outcome = .ok () → next.buffered = 0)) ∧
      ((last.1.close last.2).1 = .ok () → (last.1.close last.2).2.1.accepted = total) := by
  obtain ⟨first, pool, made, start, -, chunkSize, nothing⟩ :=
    sound_ofConfig sink positive small reachable.sound
  obtain ⟨last, performed, after⟩ := carried_run actions start (chunkSize ▸ positive)
  refine ⟨(first, pool), made, ?_⟩
  have everything := after.carried_eq
  rw [nothing] at everything
  obtain ⟨outcome, next, sent, flushed, sound, kept, emptied⟩ := flush_spec after.sound
  simp only [performed]
  refine ⟨everything, ⟨outcome, next, sent, flushed, kept, emptied⟩, ?_⟩
  unfold close
  simp only [flushed]
  cases outcome with
  | error e => simp
  | ok =>
    intro _
    have held : next.chunk.written = #[] :=
      Array.eq_empty_of_size_eq_zero (sound.size_written.trans (emptied rfl))
    have carried_eq := kept.carried_eq after.sound
    rw [carried, held, Array.append_empty, everything] at carried_eq
    exact carried_eq

/-- Two bytes of a chunk, half of them taken before a fault; a run that goes past the chunk and
fails in its middle; the retry. -/
theorem conserves_retried :
    let broken : WriteReply := .fail ⟨.brokenPipe, none⟩
    let sink : Sink :=
      { writes := [.accept 1, broken, .acceptAll, .accept 2, .accept 0], flushes := [] }
    let actions := [.span #[1, 2], .add 3, .write #[4, 5, 6], .add 7, .flush]
    (Pool.standard : Pool UInt8).Reachable ∧
      ∃ first, ofConfig sink ⟨2⟩ Pool.standard = .ok first ∧
        (run first actions).1.carried = sink.accepted ++ gainedAll first actions := by
  intro broken sink actions
  obtain ⟨first, made, carried_eq, -⟩ := conserves sink
    (by decide : 1 ≤ (Config.mk 2).chunkSize) (by decide) Pool.reachable_standard actions
  exact ⟨Pool.reachable_standard, first, made, carried_eq⟩

end Outlet

end PooledBuffers.Stream
