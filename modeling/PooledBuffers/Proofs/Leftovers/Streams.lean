import PooledBuffers.Proofs.Leftovers.Writers
import PooledBuffers.Proofs.Stream.Delivery
import PooledBuffers.Stream.Outlet

/-!
# Inlets and outlets without leftovers

An inlet rents its chunk as it is and hands out only what its source wrote into it. What a source
does depends on the room that it is given and not on what the chunk held before. An outlet shows the
places in its chunk that it hands out, which were blanked when the chunk was rented.

* `Inlet.Alike`, `Outlet.Alike` — over the same stream, with the same bytes buffered;
* `Inlet.Alike.refill` — the loop that reads until there is enough;
* `Inlet.Alike.take`, `Outlet.Alike.acquire`, … — the same outcomes, and still alike.
-/

namespace PooledBuffers.Stream

variable {pool pool' : Pool UInt8}

/-! ## Inlets -/

namespace Inlet

/-- Inlets that differ in their chunks only, which agree up to the last byte buffered. -/
def Alike (inlet other : Inlet) : Prop :=
  ∃ chunk, inlet.chunk.Alike inlet.stop chunk ∧ inlet.start ≤ inlet.stop ∧
    other = { inlet with chunk := chunk }

variable {inlet other : Inlet}

theorem alike_ofConfig (pools : pool.Alike pool') (source : Source) (config : Config) :
    SameOutcome (OnAlike Alike) (ofConfig source config pool) (ofConfig source config pool') := by
  obtain ⟨chunks, after⟩ := Block.alike_rent pools config.chunkSize
  refine (SameOutcome.same _).bind fun _ _ _ => .done ⟨⟨_, chunks, ?_, ?_⟩, after⟩
  · exact Nat.le_refl 0
  · rfl

/-- One round of the loop. -/
theorem refill_eq (inlet : Inlet) (needed : Nat) :
    inlet.refill needed =
      if needed ≤ inlet.available then (.ok (), inlet)
      else
        match inlet.source.read (inlet.chunkSize - inlet.stop) with
        | (.ok [], source) =>
          (.error (.unexpectedEnd .stream needed inlet.available), { inlet with source := source })
        | (.ok (byte :: rest), source) =>
          refill
            { inlet with
              source := source
              chunk := inlet.chunk.edit (Storage.overwrite · inlet.stop (byte :: rest).toArray)
              stop := inlet.stop + (byte :: rest).toArray.size }
            needed
        | (.error fault, source) =>
          if fault.kind = .interrupted then refill { inlet with source := source } needed
          else (.error (.io "stream read failed" fault), { inlet with source := source }) := by
  rw [refill]
  split
  · rfl
  split
  · rename_i read
    simp only [read]
  · rename_i read
    simp only [read]
  · rename_i read
    simp only [read]

namespace Alike

theorem available (alike : inlet.Alike other) : inlet.available = other.available := by
  obtain ⟨chunk, chunks, order, rfl⟩ := alike
  rfl

theorem consumed (alike : inlet.Alike other) : inlet.consumed = other.consumed := by
  obtain ⟨chunk, chunks, order, rfl⟩ := alike
  rfl

theorem chunkSize (alike : inlet.Alike other) : inlet.chunkSize = other.chunkSize := by
  obtain ⟨chunk, chunks, order, rfl⟩ := alike
  exact chunks.length

/-- The source is asked for as many bytes. -/
theorem read (alike : inlet.Alike other) :
    other.source.read (other.chunkSize - other.stop) =
      inlet.source.read (inlet.chunkSize - inlet.stop) := by
  rw [← alike.chunkSize]
  obtain ⟨chunk, chunks, order, rfl⟩ := alike
  rfl

/-- The source is left in another state. -/
theorem with_source (alike : inlet.Alike other) (source : Source) :
    ({ inlet with source := source } : Inlet).Alike { other with source := source } := by
  obtain ⟨chunk, chunks, order, rfl⟩ := alike
  exact ⟨chunk, chunks, order, rfl⟩

/-- What is written behind the bytes buffered is the same on both sides. -/
theorem deliver (alike : inlet.Alike other) (source : Source) (run : Array UInt8) :
    Alike
      { inlet with
        source := source
        chunk := inlet.chunk.edit (Storage.overwrite · inlet.stop run)
        stop := inlet.stop + run.size }
      { other with
        source := source
        chunk := other.chunk.edit (Storage.overwrite · other.stop run)
        stop := other.stop + run.size } := by
  obtain ⟨chunk, chunks, order, rfl⟩ := alike
  exact ⟨_, chunks.edit (Storage.respects_extend _ rfl (Nat.le_refl _) run (Nat.le_refl _)),
    Nat.le_trans order (Nat.le_add_right _ _), rfl⟩

theorem refill (alike : inlet.Alike other) (needed : Nat) :
    (inlet.refill needed).1 = (other.refill needed).1 ∧
      (inlet.refill needed).2.Alike (other.refill needed).2 := by
  fun_induction Inlet.refill inlet needed generalizing other with
  | case1 inlet enough =>
    rw [refill_eq other, if_pos (alike.available ▸ enough)]
    exact ⟨rfl, alike⟩
  | case2 inlet short source read =>
    rw [refill_eq other, if_neg (alike.available ▸ short), alike.read, read]
    exact ⟨by rw [alike.available], alike.with_source source⟩
  | case3 inlet short byte rest source read _ run =>
    rw [refill_eq other, if_neg (alike.available ▸ short), alike.read, read]
    rename_i ih
    exact ih (alike.deliver source run)
  | case4 inlet short fault source read _ interrupted ih =>
    rw [refill_eq other, if_neg (alike.available ▸ short), alike.read, read]
    simp only [if_pos interrupted]
    exact ih (alike.with_source source)
  | case5 inlet short fault source read _ failed =>
    rw [refill_eq other, if_neg (alike.available ▸ short), alike.read, read]
    simp only [if_neg failed]
    exact ⟨trivial, alike.with_source source⟩

theorem compact (alike : inlet.Alike other) : inlet.compact.Alike other.compact := by
  obtain ⟨chunk, chunks, order, rfl⟩ := alike
  have inside : inlet.start + inlet.available ≤ inlet.stop := by
    unfold Inlet.available
    omega
  have moved := chunks.edit (Storage.respects_moveWithin inside 0)
  exact ⟨_, moved.mono (Nat.sub_le _ _), Nat.zero_le _, rfl⟩

theorem ensure (alike : inlet.Alike other) (needed : Nat) :
    (inlet.ensure needed).1 = (other.ensure needed).1 ∧
      (inlet.ensure needed).2.Alike (other.ensure needed).2 := by
  have same : other.stop = inlet.stop := by
    obtain ⟨chunk, chunks, order, rfl⟩ := alike
    rfl
  unfold Inlet.ensure
  rw [← alike.available, ← alike.chunkSize, same]
  split
  · exact ⟨rfl, alike⟩
  split
  · exact ⟨rfl, alike⟩
  split
  · exact alike.compact.refill needed
  · exact alike.refill needed

/-- Both inlets come out of it with the same bytes buffered, and after a success with enough. -/
theorem ensured (alike : inlet.Alike other) (needed : Nat) :
    ∃ outcome filled chunk, inlet.ensure needed = (outcome, filled) ∧
      other.ensure needed = (outcome, { filled with chunk := chunk }) ∧
      filled.chunk.Alike filled.stop chunk ∧ filled.start ≤ filled.stop ∧
      (outcome = .ok () → filled.start + needed ≤ filled.stop) := by
  have enough := inlet.available_of_ensure needed
  obtain ⟨same, chunk, chunks, order, theirs⟩ := alike.ensure needed
  rcases mine : inlet.ensure needed with ⟨outcome, filled⟩
  rw [mine] at same chunks order theirs enough
  refine ⟨outcome, filled, chunk, rfl, Prod.ext same.symm theirs, chunks, order, fun success => ?_⟩
  have buffered : needed ≤ filled.stop - filled.start := enough success
  have order : filled.start ≤ filled.stop := order
  omega

theorem take (alike : inlet.Alike other) (count : Nat) :
    (inlet.take count).1 = (other.take count).1 ∧
      (inlet.take count).2.Alike (other.take count).2 := by
  obtain ⟨outcome, filled, chunk, mine, theirs, chunks, order, enough⟩ := alike.ensured count
  unfold Inlet.take
  rw [mine, theirs]
  cases outcome with
  | error e => exact ⟨rfl, chunk, chunks, order, rfl⟩
  | ok =>
    have inside := enough rfl
    have bytes := chunks.physical.extract inside filled.start
    exact ⟨congrArg Except.ok bytes, chunk, chunks, inside, rfl⟩

theorem takeByte (alike : inlet.Alike other) :
    inlet.takeByte.1 = other.takeByte.1 ∧ inlet.takeByte.2.Alike other.takeByte.2 := by
  obtain ⟨outcome, filled, chunk, mine, theirs, chunks, order, enough⟩ := alike.ensured 1
  unfold Inlet.takeByte
  rw [mine, theirs]
  cases outcome with
  | error e => exact ⟨rfl, chunk, chunks, order, rfl⟩
  | ok =>
    have inside := enough rfl
    refine ⟨congrArg Except.ok ?_, chunk, chunks, inside, rfl⟩
    rw [Array.getD_eq_getD_getElem?, Array.getD_eq_getD_getElem?]
    exact congrArg (Option.getD · 0) (chunks.physical.get _ inside)

theorem close (alike : inlet.Alike other) (pools : pool.Alike pool') :
    (inlet.close pool).1 = (other.close pool').1 ∧
      (inlet.close pool).2.Alike (other.close pool').2 := by
  obtain ⟨chunk, chunks, order, rfl⟩ := alike
  exact ⟨rfl, (chunks.dispose pools 0).pool⟩

end Alike

end Inlet

/-! ## Outlets -/

namespace Outlet

/-- Outlets over the same sink, with chunks that show the same. -/
structure Alike (outlet other : Outlet) : Prop where
  sink : outlet.sink = other.sink
  chunk : outlet.chunk.Alike other.chunk
  chunkSize : outlet.chunkSize = other.chunkSize
  flushed : outlet.flushed = other.flushed

variable {outlet other : Outlet}

theorem alike_ofConfig (pools : pool.Alike pool') (sink : Sink) (config : Config) :
    SameOutcome (OnAlike Alike) (ofConfig sink config pool) (ofConfig sink config pool') := by
  obtain ⟨chunks, after⟩ := Writer.alike_withCapacity pools config.chunkSize
  exact (SameOutcome.same _).bind fun _ _ _ => .done ⟨⟨rfl, chunks, rfl, rfl⟩, after⟩

namespace Alike

theorem with_sink (alike : outlet.Alike other) (sink : Sink) :
    ({ outlet with sink := sink } : Outlet).Alike { other with sink := sink } :=
  ⟨rfl, alike.chunk, alike.chunkSize, alike.flushed⟩

theorem needsFlushing (alike : outlet.Alike other) (addition : Nat) :
    outlet.needsFlushing addition = other.needsFlushing addition := by
  rw [Outlet.needsFlushing, Outlet.needsFlushing, alike.chunkSize, alike.chunk.position]

/-! ### Flushing -/

theorem drain (alike : outlet.Alike other) (pools : pool.Alike pool') (sent : Nat) :
    SameAnswer Alike (outlet.drain sent pool) (other.drain sent pool') := by
  unfold Outlet.drain
  split
  · exact ⟨rfl, alike, pools⟩
  rw [← alike.chunk.position]
  have moved := alike.chunk.moveWithin pools sent (outlet.chunk.position - sent) 0 false
  dsimp only
  generalize outlet.chunk.moveWithin _ _ _ _ _ = outcome at moved ⊢
  generalize other.chunk.moveWithin _ _ _ _ _ = outcome' at moved ⊢
  cases moved with
  | refused refusal => exact ⟨rfl, alike, pools⟩
  | @done next next' both =>
    obtain ⟨moved, pools⟩ := both
    have placed := moved.setPosition (outlet.chunk.position - sent)
    dsimp only
    generalize next.1.setPosition _ = outcome at placed ⊢
    generalize next'.1.setPosition _ = outcome' at placed ⊢
    cases placed with
    | refused refusal => exact ⟨rfl, ⟨alike.sink, moved, alike.chunkSize, alike.flushed⟩, pools⟩
    | done placed =>
      exact ⟨rfl, ⟨alike.sink, placed, alike.chunkSize, congrArg (· + sent) alike.flushed⟩, pools⟩

theorem flush (alike : outlet.Alike other) (pools : pool.Alike pool') :
    SameAnswer Alike (outlet.flush pool) (other.flush pool') := by
  unfold Outlet.flush
  simp only [← alike.sink, ← alike.chunk.position, ← alike.chunk.written]
  split
  · exact ⟨rfl, alike, pools⟩
  split
  · rename_i sent fault sink sending
    obtain ⟨outcome, kept, kept', middle, middle', first, second, alike, pools⟩ :=
      ((alike.with_sink sink).drain pools sent).parts
    rw [first, second]
    cases outcome with
    | error e => exact ⟨rfl, alike, pools⟩
    | ok => exact ⟨rfl, alike, pools⟩
  · rename_i sink sending
    have emptied : Alike
        { outlet with
          sink := sink.flush.2
          chunk := outlet.chunk.reset
          flushed := outlet.flushed + outlet.chunk.position }
        { other with
          sink := sink.flush.2
          chunk := other.chunk.reset
          flushed := other.flushed + outlet.chunk.position } :=
      ⟨rfl, alike.chunk.at_position 0, alike.chunkSize, congrArg (· + _) alike.flushed⟩
    split
    · exact ⟨rfl, emptied, pools⟩
    · exact ⟨rfl, emptied, pools⟩

theorem makeRoom (alike : outlet.Alike other) (pools : pool.Alike pool') (addition : Nat) :
    SameAnswer Alike (outlet.makeRoom addition pool) (other.makeRoom addition pool') := by
  unfold Outlet.makeRoom
  rw [← alike.needsFlushing]
  split
  · exact alike.flush pools
  · exact ⟨rfl, alike, pools⟩

/-! ### Adding bytes -/

theorem sendWhole (alike : outlet.Alike other) (run : Array UInt8) :
    (outlet.sendWhole run).1 = (other.sendWhole run).1 ∧
      (outlet.sendWhole run).2.Alike (other.sendWhole run).2 := by
  unfold Outlet.sendWhole
  rw [← alike.sink]
  split
  · rename_i sink sending
    exact ⟨rfl, rfl, alike.chunk, alike.chunkSize, congrArg (· + run.size) alike.flushed⟩
  · rename_i fault sink sending
    exact ⟨rfl, alike.with_sink sink⟩

theorem write (alike : outlet.Alike other) (pools : pool.Alike pool') (run : Array UInt8) :
    SameAnswer Alike (outlet.write run pool) (other.write run pool') := by
  obtain ⟨outcome, made, made', middle, middle', first, second, alike, pools⟩ :=
    (alike.makeRoom pools run.size).parts
  unfold Outlet.write
  rw [first, second]
  cases outcome with
  | error e => exact ⟨rfl, alike, pools⟩
  | ok =>
    simp only [← alike.chunkSize]
    split
    · obtain ⟨outcome, next⟩ := alike.sendWhole run
      exact ⟨outcome, next, pools⟩
    · obtain ⟨chunk, pools⟩ := alike.chunk.appendRun pools run
      exact ⟨rfl, ⟨alike.sink, chunk, rfl, alike.flushed⟩, pools⟩

theorem add (alike : outlet.Alike other) (pools : pool.Alike pool') (value : UInt8) :
    SameAnswer Alike (outlet.add value pool) (other.add value pool') := by
  obtain ⟨outcome, made, made', middle, middle', first, second, alike, pools⟩ :=
    (alike.makeRoom pools 1).parts
  unfold Outlet.add
  rw [first, second]
  cases outcome with
  | error e => exact ⟨rfl, alike, pools⟩
  | ok =>
    obtain ⟨chunk, pools⟩ := alike.chunk.append pools value
    exact ⟨rfl, ⟨alike.sink, chunk, alike.chunkSize, alike.flushed⟩, pools⟩

theorem acquire (alike : outlet.Alike other) (pools : pool.Alike pool') (count : Nat)
    (content : Array UInt8) :
    SameAnswer Alike (outlet.acquire count content pool) (other.acquire count content pool') := by
  obtain ⟨outcome, made, made', middle, middle', first, second, alike, pools⟩ :=
    (alike.makeRoom pools count).parts
  unfold Outlet.acquire
  rw [first, second]
  cases outcome with
  | error e => exact ⟨rfl, alike, pools⟩
  | ok =>
    simp only [← alike.needsFlushing, ← alike.chunkSize]
    split
    · exact ⟨rfl, alike, pools⟩
    · obtain ⟨handed, chunk, pools⟩ := alike.chunk.acquire pools count true content
      exact ⟨congrArg Except.ok handed, ⟨alike.sink, chunk, rfl, alike.flushed⟩, pools⟩

/-! ### The end -/

theorem abandon (alike : outlet.Alike other) (pools : pool.Alike pool') :
    (outlet.abandon pool).1 = (other.abandon pool').1 ∧
      (outlet.abandon pool).2.Alike (other.abandon pool').2 := by
  obtain ⟨-, flushed, pools⟩ := alike.flush pools
  exact ⟨flushed.sink, (flushed.chunk.dispose pools).pool⟩

theorem close (alike : outlet.Alike other) (pools : pool.Alike pool') :
    (outlet.close pool).1 = (other.close pool').1 ∧
      (outlet.close pool).2.1 = (other.close pool').2.1 ∧
      (outlet.close pool).2.2.Alike (other.close pool').2.2 := by
  obtain ⟨outcome, kept, kept', middle, middle', first, second, alike, pools⟩ :=
    (alike.flush pools).parts
  unfold Outlet.close
  rw [first, second]
  cases outcome with
  | ok => exact ⟨rfl, alike.sink, (alike.chunk.dispose pools).pool⟩
  | error e =>
    obtain ⟨sink, pools⟩ := alike.abandon pools
    exact ⟨rfl, sink, pools⟩

end Alike

end Outlet

end PooledBuffers.Stream
