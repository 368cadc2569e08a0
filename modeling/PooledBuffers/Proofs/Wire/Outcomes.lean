import PooledBuffers.Proofs.Wire.Writing
import PooledBuffers.Proofs.Writer.Refinement

/-!
# Outcomes do not depend on the carrier

An encoder takes or refuses an item by what the item is, and what it has carried is the bytes of the
items it took, on memory as on a stream that takes all it is offered, whatever route the bytes take
through the chunk.

* `Encoder.Step` — the calls that write, and flushes among them;
* `Encoder.perform_carries`, `Encoder.performAll_carries` — one call, and any number of them;
* `Encoder.stream_outcomes` — an encoder to a stream against one in memory.
-/

namespace PooledBuffers.Encoder

open PooledBuffers.Stream (Outlet Sink)

/-- One call of an encoder. -/
inductive Step : Type 1 where
  | put (item : Item)
  | flush

namespace Step

/-- The bytes that a call adds to what is carried: none if its item is refused. -/
def landed : Step → Array UInt8
  | put item =>
    match item.check with
    | .ok () => item.image
    | .error _ => #[]
  | flush => #[]

/-- What a call answers: the number of bytes it took, or why its item is refused. -/
def outcome : Step → Except Error Nat
  | put item => item.check.map fun _ => item.image.size
  | flush => .ok 0

/-- The bytes of a fixed-width value that is not refused can stay together. -/
def Fits (carrier : Carrier) : Step → Prop
  | put item => item.check = .ok () → carrier.Holds item.span
  | flush => True

theorem of_accepted {item : Item} (accepted : item.check = .ok ()) :
    (put item).landed = item.image ∧ (put item).outcome = .ok item.image.size := by
  simp only [landed, outcome, accepted]
  exact ⟨trivial, rfl⟩

theorem of_refused {item : Item} {e : Error} (refused : item.check = .error e) :
    (put item).landed = #[] ∧ (put item).outcome = .error e := by
  simp only [landed, outcome, refused]
  exact ⟨trivial, rfl⟩

end Step

/-- Makes a call. A flush answers that it took no bytes. -/
def perform (encoder : Encoder) (pool : Pool UInt8) :
    Step → Except Error Nat × Encoder × Pool UInt8
  | .put item => encoder.put item pool
  | .flush =>
    let (outcome, state) := encoder.flush pool
    (outcome.map fun _ => 0, state)

/-- Makes calls one after another, also behind those that fail. -/
def performAll (encoder : Encoder) (pool : Pool UInt8) :
    List Step → List (Except Error Nat) × Encoder × Pool UInt8
  | [] => ([], encoder, pool)
  | step :: rest =>
    let (outcome, encoder, pool) := encoder.perform pool step
    let (outcomes, state) := encoder.performAll pool rest
    (outcome :: outcomes, state)

/-- The bytes that calls add one after another. -/
def landedAll (steps : List Step) : Array UInt8 := join (steps.map Step.landed)

section Calls

variable {carrier : Carrier} {encoder : Encoder} {pool : Pool UInt8} {output : Array UInt8}

/-- A call answers by what it is, and carries its bytes behind the others. -/
theorem perform_carries (carries : Carries carrier encoder pool output) (step : Step)
    (fits : step.Fits carrier)
    (small : carrier = .memory → output.size + step.landed.size ≤ Size.maxCapacity) :
    ∃ next rest, encoder.perform pool step = (step.outcome, next, rest) ∧
      Carries carrier next rest (output ++ step.landed) := by
  cases step with
  | flush =>
    obtain ⟨next, rest, flushed, after⟩ := flush_carries carries
    refine ⟨next, rest, ?_, ?_⟩
    · unfold perform
      rw [flushed]
      rfl
    · rw [show Step.flush.landed = #[] from rfl, Array.append_empty]
      exact after
  | put item =>
    show ∃ next rest, encoder.put item pool = _ ∧ _
    cases checked : item.check with
    | error e =>
      obtain ⟨landed, outcome⟩ := Step.of_refused checked
      rw [landed, outcome, Array.append_empty]
      exact ⟨encoder, pool, put_refused checked, carries⟩
    | ok =>
      obtain ⟨landed, outcome⟩ := Step.of_accepted checked
      rw [landed] at small
      rw [landed, outcome]
      exact put_carries carries checked (fits checked) small

theorem performAll_carries (steps : List Step) (carries : Carries carrier encoder pool output)
    (fits : ∀ step ∈ steps, step.Fits carrier)
    (small : carrier = .memory → output.size + (landedAll steps).size ≤ Size.maxCapacity) :
    ∃ next rest, encoder.performAll pool steps = (steps.map Step.outcome, next, rest) ∧
      Carries carrier next rest (output ++ landedAll steps) := by
  induction steps generalizing encoder pool output with
  | nil => exact ⟨encoder, pool, rfl, by simpa [landedAll] using carries⟩
  | cons step others ih =>
    have joined : landedAll (step :: others) = step.landed ++ landedAll others := join_cons _ _
    rw [List.forall_mem_cons] at fits
    rw [joined, Array.size_append] at small
    obtain ⟨middle, state, first, after⟩ :=
      perform_carries carries step fits.1 fun h => by have := small h; omega
    obtain ⟨next, rest, second, last⟩ := ih after fits.2 fun h => by
      have := small h
      rw [Array.size_append]
      omega
    refine ⟨next, rest, ?_, ?_⟩
    · rw [performAll, first, List.map_cons]
      simp only [second]
    · rw [joined, ← Array.append_assoc]
      exact last

/-- What an encoder in memory has carried is what is written. -/
theorem Carries.written_eq (carries : Carries .memory encoder pool output) :
    encoder.written = .ok output := by
  cases carries with
  | @memory writer _ _ _ shows output_eq =>
    have written : writer.written = output := by
      rw [shows.written_eq (Nat.le_refl _), output_eq]
    exact congrArg Except.ok written

/-- What an encoder to a stream has carried is what its sink has at the end. -/
theorem Carries.intoSink_eq {chunkSize : Nat}
    (carries : Carries (.stream chunkSize) encoder pool output) :
    ∃ loan last, encoder.intoSink pool = (.ok (), loan, last) ∧
      loan.sink.map Sink.accepted = some output := by
  cases carries with
  | stream sound willing chunkSize_eq positive output_eq =>
    obtain ⟨sink, rest, closed, accepted⟩ := Outlet.close_willing sound willing
    refine ⟨{ sink := some sink }, rest, ?_, congrArg some (accepted.trans output_eq)⟩
    unfold intoSink
    simp only [closed]

end Calls

/-- The encoder of a fresh writer has carried nothing. -/
theorem carries_start (start : Writer.Start UInt8) (minGrow : Option Nat) {pool : Pool UInt8}
    (sound : pool.Sound) :
    Carries .memory (.memory (start.make minGrow pool).1) (start.make minGrow pool).2 #[] := by
  have shows := (start.simulates minGrow sound).shows
  exact .memory (shows.mono (Nat.zero_le _)) (Tape.stretch_zero _ _)

/-- An encoder to a stream that takes all it is offered, in parts of any size, answers every call as
an encoder in memory does, which may start on any memory and grow by any steps. At their ends the
stream has received, behind what it had, what is written in memory. The chunk may have any length,
as long as the fixed-width values that are not refused fit. -/
theorem stream_outcomes (start : Writer.Start UInt8) (minGrow : Option Nat) (sink : Sink)
    (config : Stream.Config) (pool other : Pool UInt8) (reachable : pool.Reachable)
    (reachableOther : other.Reachable) (willing : sink.Willing) (positive : 1 ≤ config.chunkSize)
    (allocatable : config.chunkSize ≤ Size.maxCapacity) (steps : List Step)
    (fits : ∀ step ∈ steps, step.Fits (.stream config.chunkSize))
    (small : (landedAll steps).size ≤ Size.maxCapacity) :
    ∃ first rest outcomes encoder state memory stateOther written loan last,
      toStream sink config pool = .ok (first, rest) ∧
      first.performAll rest steps = (outcomes, encoder, state) ∧
      (Encoder.memory (start.make minGrow other).1).performAll (start.make minGrow other).2 steps =
        (outcomes, memory, stateOther) ∧
      outcomes = steps.map Step.outcome ∧
      memory.written = .ok written ∧
      encoder.intoSink state = (.ok (), loan, last) ∧
      loan.sink.map Sink.accepted = some (sink.accepted ++ written) ∧
      written = landedAll steps := by
  obtain ⟨outlet, rest, made, sound, same, chunkSize, nothing⟩ :=
    Outlet.sound_ofConfig sink positive allocatable reachable.sound
  have begun : Carries (.stream config.chunkSize) (.stream outlet) rest sink.accepted :=
    .stream sound (same ▸ willing) chunkSize positive nothing
  obtain ⟨encoder, state, served, carriedHere⟩ :=
    performAll_carries steps begun fits fun h => by cases h
  -- In memory every value can stay together.
  have loose : ∀ step ∈ steps, step.Fits .memory := by
    intro step _
    cases step with
    | put item => exact fun _ => trivial
    | flush => trivial
  obtain ⟨memory, stateOther, answered, carriedThere⟩ :=
    performAll_carries steps (carries_start start minGrow reachableOther.sound) loose fun _ => by
      rw [Array.size_empty, Nat.zero_add]
      exact small
  rw [Array.empty_append] at carriedThere
  obtain ⟨loan, last, closed, accepted⟩ := carriedHere.intoSink_eq
  refine ⟨.stream outlet, rest, steps.map Step.outcome, encoder, state, memory, stateOther,
    landedAll steps, loan, last, ?_, served, answered, rfl, carriedThere.written_eq, closed,
    accepted, rfl⟩
  unfold toStream
  simp only [made]
  rfl

/-- A chunk of two bytes, less than a text and a run are long, on a sink that takes one byte at a
time; in memory the second byte is already in rented cells. A value of 257 bytes is refused in
big-endian order. -/
theorem stream_outcomes_small_chunk :
    let sink : Sink := { writes := [.accept 1, .fail ⟨.interrupted, none⟩, .accept 1], flushes := [] }
    let wide : Vector UInt8 257 := Vector.replicate 257 9
    let steps : List Step :=
      [.put (.value .big (0x0102 : UInt16)), .put (.byte 3), .put (.value .big wide), .flush,
        .put (.text (.utf16 .little) "ab"), .put (.bytes #[4, 5, 6]), .put (.units [0xD800])]
    (Pool.standard : Pool UInt8).Reachable ∧ sink.Willing ∧
      (∀ step ∈ steps, step.Fits (.stream 2)) ∧ (landedAll steps).size ≤ Size.maxCapacity ∧
      ∃ first rest encoder state loan last,
        toStream sink ⟨2⟩ Pool.standard = .ok (first, rest) ∧
        first.performAll rest steps =
          ([.ok 2, .ok 1, .error (.outOfRange "size_of::<T>" 257 256), .ok 0, .ok 4, .ok 3, .ok 2],
            encoder, state) ∧
        encoder.intoSink state = (.ok (), loan, last) ∧
        loan.sink.map Sink.accepted = some #[1, 2, 3, 97, 0, 98, 0, 4, 5, 6, 0, 0xD8] := by
  intro sink wide steps
  have willing : sink.Willing := by
    refine ⟨?_, ?_⟩ <;> simp [sink, Stream.WriteReply.Willing]
  have fits : ∀ step ∈ steps, step.Fits (.stream 2) := by
    simp [steps, Step.Fits, Item.check, Item.span, Layout.checkOrder, Layout.width, Carrier.Holds,
      maxSwapWidth]
  have landed : landedAll steps = #[1, 2, 3, 97, 0, 98, 0, 4, 5, 6, 0, 0xD8] := rfl
  have small : (landedAll steps).size ≤ Size.maxCapacity := by
    rw [landed]
    decide
  obtain ⟨first, rest, _, encoder, state, _, _, _, loan, last, made, served, -, rfl, -, closed,
    accepted, rfl⟩ :=
    stream_outcomes (.memory #[0]) (some defaultMinGrow) sink ⟨2⟩ Pool.standard Pool.standard
      Pool.reachable_standard Pool.reachable_standard willing (by decide) (by decide) steps fits
      small
  rw [landed] at accepted
  exact ⟨Pool.reachable_standard, willing, fits, small, first, rest, encoder, state, loan, last,
    made, served, closed, accepted⟩

end PooledBuffers.Encoder
