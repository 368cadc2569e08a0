import PooledBuffers.Proofs.Leftovers.Blocks
import PooledBuffers.Writer.Action
import PooledBuffers.Writer.Typed

/-!
# Writers without leftovers

All that a writer shows, past its cursor too, was lent by its caller, blanked, or written. A growth
rents an array as it is; the old contents and blanks behind them cover all that the writer shows of
it from then on.

* `Writer.Alike` — writers on memory that agrees, with the same cursor;
* `Writer.Alike.grow` — writers that grow stay alike, whatever array each of them gets;
* `Writer.Alike.perform`, `Writer.Alike.write`, `Writer.Alike.read` — the operations.
-/

namespace PooledBuffers

open Storage (Respects)

variable {α : Type} {pool pool' : Pool α}

namespace Writer

/-! ## Memory -/

/-- Memory of writers that started alike, or that both moved to rented memory. -/
inductive Backing.Alike : Backing α → Backing α → Prop
  | initial {span other : Span α} (spans : span.Alike other) :
    Alike (.initial span) (.initial other)
  | grown {block other : Block α} {caller caller' : Option (Array α)}
    (blocks : block.Alike block.length other) (callers : caller = caller') :
    Alike (.grown block caller) (.grown other caller')

namespace Backing.Alike

variable {backing other : Backing α}

theorem cells (alike : backing.Alike other) : backing.cells = other.cells := by
  cases alike with
  | initial spans => exact spans.cells
  | grown blocks callers => exact blocks.cells (Nat.le_refl _)

theorem slice (alike : backing.Alike other) (start stop : Nat) :
    backing.slice start stop = other.slice start stop := by
  cases alike with
  | initial spans => exact spans.slice start stop
  | grown blocks callers => exact blocks.slice (Nat.min_le_right _ _) start

theorem length (alike : backing.Alike other) : backing.length = other.length := by
  cases alike with
  | initial spans => exact spans.length
  | grown blocks callers => exact blocks.length

theorem caller (alike : backing.Alike other) : backing.caller = other.caller := by
  cases alike with
  | initial spans => exact spans.caller
  | grown blocks callers => exact callers

theorem isGrown (alike : backing.Alike other) : backing.isGrown = other.isGrown := by
  cases alike with
  | initial spans => rfl
  | grown blocks callers => rfl

theorem edit (alike : backing.Alike other) {f g : Array α → Array α}
    (respects : Respects backing.length backing.length f g) :
    (backing.edit f).Alike (other.edit g) := by
  cases alike with
  | initial spans => exact .initial (spans.edit respects)
  | grown blocks callers =>
    refine .grown ?_ callers
    rw [Block.length_edit]
    exact blocks.edit respects

theorem dispose [Element α] (alike : backing.Alike other) (pools : pool.Alike pool') :
    OnAlike Backing.Alike (backing.dispose pool) (other.dispose pool') := by
  cases alike with
  | initial spans =>
    obtain ⟨released, after⟩ := spans.dispose pools
    exact ⟨.initial released, after⟩
  | grown blocks callers =>
    obtain ⟨released, after⟩ := blocks.dispose pools _
    exact ⟨.grown released callers, after⟩

end Backing.Alike

/-! ## Writers -/

/-- Writers that differ in nothing that they show. -/
structure Alike (writer other : Writer α) : Prop where
  backing : writer.backing.Alike other.backing
  initialLength : writer.initialLength = other.initialLength
  minGrow : writer.minGrow = other.minGrow
  position : writer.position = other.position

theorem alike_onMemory (cells : Array α) : (onMemory cells).Alike (onMemory cells) :=
  ⟨.initial (.borrowed cells), rfl, rfl, rfl⟩

namespace Alike

variable {writer other : Writer α}

theorem withMinGrow (alike : writer.Alike other) (length : Nat) :
    (writer.withMinGrow length).Alike (other.withMinGrow length) :=
  ⟨alike.backing, alike.initialLength, rfl, alike.position⟩

/-- The cursors may both be put somewhere else. -/
theorem at_position (alike : writer.Alike other) (position : Nat) :
    ({ writer with position := position } : Writer α).Alike { other with position := position } :=
  ⟨alike.backing, alike.initialLength, alike.minGrow, rfl⟩

/-! ### Views -/

theorem cells (alike : writer.Alike other) : writer.cells = other.cells := alike.backing.cells

theorem slice (alike : writer.Alike other) (start count : Nat) :
    writer.slice start count = other.slice start count := alike.backing.slice _ _

theorem capacity (alike : writer.Alike other) : writer.capacity = other.capacity :=
  alike.backing.length

theorem freeCapacity (alike : writer.Alike other) : writer.freeCapacity = other.freeCapacity := by
  rw [Writer.freeCapacity, Writer.freeCapacity, alike.capacity, alike.position]

theorem written (alike : writer.Alike other) : writer.written = other.written := by
  rw [Writer.written, Writer.written, alike.position, alike.slice]

theorem isGrown (alike : writer.Alike other) : writer.isGrown = other.isGrown :=
  alike.backing.isGrown

theorem caller (alike : writer.Alike other) : writer.caller = other.caller := alike.backing.caller

theorem grownCapacity (alike : writer.Alike other) (requested : Nat) :
    writer.grownCapacity requested = other.grownCapacity requested := by
  simp only [Writer.grownCapacity, alike.capacity, alike.isGrown, alike.initialLength,
    alike.minGrow]

/-! ### Changes without growth -/

theorem edit (alike : writer.Alike other) {f g : Array α → Array α}
    (respects : Respects writer.capacity writer.capacity f g) :
    (writer.edit f).Alike (other.edit g) :=
  ⟨alike.backing.edit respects, alike.initialLength, alike.minGrow, alike.position⟩

/-- An edit of the memory and a step of the cursor. -/
theorem edit_at (alike : writer.Alike other) {f g : Array α → Array α}
    (respects : Respects writer.capacity writer.capacity f g) {position position' : Nat}
    (positions : position = position') :
    ({ writer with backing := writer.backing.edit f, position := position } : Writer α).Alike
      { other with backing := other.backing.edit g, position := position' } :=
  ⟨alike.backing.edit respects, alike.initialLength, alike.minGrow, positions⟩

theorem fill (alike : writer.Alike other) (value : α) :
    (writer.fill value).Alike (other.fill value) := by
  rw [Writer.fill, Writer.fill, ← alike.capacity]
  exact alike.edit (Storage.respects_overwrite rfl _)

theorem setPosition (alike : writer.Alike other) (position : Nat) :
    SameOutcome Alike (writer.setPosition position) (other.setPosition position) := by
  unfold Writer.setPosition
  rw [← alike.capacity]
  split
  · exact .refused _
  · exact .done (alike.at_position position)

theorem set? (alike : writer.Alike other) (index : Nat) (value : α) :
    Option.Rel Alike (writer.set? index value) (other.set? index value) := by
  unfold Writer.set?
  rw [← alike.capacity]
  split
  · exact .some (alike.edit (Storage.respects_set rfl value))
  · exact .none

theorem setWritten? (alike : writer.Alike other) (index : Nat) (value : α) :
    Option.Rel Alike (writer.setWritten? index value) (other.setWritten? index value) := by
  unfold Writer.setWritten?
  rw [← alike.position]
  split
  · exact alike.set? index value
  · exact .none

end Alike

/-! ### Growing -/

variable [Element α] {writer other : Writer α}

theorem alike_withCapacity (pools : pool.Alike pool') (length : Nat) :
    OnAlike Alike (withCapacity pool length) (withCapacity pool' length) := by
  obtain ⟨blocks, after⟩ := Block.alike_rent_blank pools length
  exact ⟨⟨.grown blocks rfl, rfl, rfl, rfl⟩, after⟩

/-- Old contents and the blanks behind them cover all of the new length. -/
theorem respects_carryOver (old : Array α) (length : Nat) :
    Respects 0 length (carryOver old length) (carryOver old length) := by
  have front := Storage.respects_extend old.size rfl (Nat.le_refl 0) old (by omega)
  have behind := Storage.respects_extend length rfl (Nat.le_refl old.size)
    (Storage.blank (α := α) (length - old.size)) (by rw [Storage.size_blank]; omega)
  exact front.comp behind

/-- A capacity within the bound on growth is reached without giving up any cell. -/
theorem capacity_le_ensureCapacity (writer : Writer α) (pool : Pool α) {length : Nat}
    (small : length ≤ Size.maxCapacity) :
    writer.capacity ≤ (writer.ensureCapacity length pool).1.capacity := by
  unfold Writer.ensureCapacity
  split
  · rename_i short
    have enough : writer.capacity + (length - writer.capacity) ≤
        writer.grownCapacity (length - writer.capacity) := add_le_grownCapacity (by omega)
    have capacity : (writer.grow (length - writer.capacity) pool).1.capacity =
        writer.grownCapacity (length - writer.capacity) := Block.length_edit _ _
    omega
  · exact Nat.le_refl _

namespace Alike

theorem grow (alike : writer.Alike other) (pools : pool.Alike pool') (requested : Nat) :
    OnAlike Alike (writer.grow requested pool) (other.grow requested pool') := by
  rw [grow_eq, grow_eq, ← alike.grownCapacity, ← alike.cells]
  obtain ⟨blocks, middle⟩ := Block.alike_rent pools (writer.grownCapacity requested)
  obtain ⟨released, last⟩ := alike.backing.dispose middle
  refine ⟨⟨.grown ?_ released.caller, alike.initialLength, alike.minGrow, alike.position⟩, last⟩
  rw [Block.length_edit]
  exact blocks.edit (respects_carryOver _ _)

theorem ensureFree (alike : writer.Alike other) (pools : pool.Alike pool') (count : Nat) :
    OnAlike Alike (writer.ensureFree count pool) (other.ensureFree count pool') := by
  unfold Writer.ensureFree
  rw [← alike.freeCapacity]
  split
  · exact alike.grow pools _
  · exact ⟨alike, pools⟩

theorem ensureCapacity (alike : writer.Alike other) (pools : pool.Alike pool') (length : Nat) :
    OnAlike Alike (writer.ensureCapacity length pool) (other.ensureCapacity length pool') := by
  unfold Writer.ensureCapacity
  rw [← alike.capacity]
  split
  · exact alike.grow pools _
  · exact ⟨alike, pools⟩

/-! ### Writing -/

theorem append (alike : writer.Alike other) (pools : pool.Alike pool') (value : α) :
    OnAlike Alike (writer.append value pool) (other.append value pool') := by
  obtain ⟨grown, after⟩ := alike.ensureFree pools 1
  exact ⟨grown.edit_at (Storage.respects_set grown.position value)
    (congrArg (· + 1) grown.position), after⟩

theorem appendRun (alike : writer.Alike other) (pools : pool.Alike pool') (run : Array α) :
    OnAlike Alike (writer.appendRun run pool) (other.appendRun run pool') := by
  obtain ⟨grown, after⟩ := alike.ensureFree pools run.size
  exact ⟨grown.edit_at (Storage.respects_overwrite grown.position run)
    (congrArg (· + run.size) grown.position), after⟩

theorem appendEach (alike : writer.Alike other) (pools : pool.Alike pool') (run : Array α) :
    OnAlike Alike (writer.appendEach run pool) (other.appendEach run pool') :=
  Array.foldl_rel (r := OnAlike Alike) ⟨alike, pools⟩
    fun value _ _ _ both => both.object.append both.pool value

theorem acquire (alike : writer.Alike other) (pools : pool.Alike pool') (count : Nat)
    (movePosition : Bool) (content : Array α) :
    SameAnswer Alike (writer.acquire count movePosition content pool)
      (other.acquire count movePosition content pool') := by
  obtain ⟨grown, after⟩ := alike.ensureFree pools count
  refine ⟨?_, grown.edit_at (Storage.respects_overwrite grown.position _) ?_, after⟩
  · exact (grown.slice _ count).trans (congrArg (Writer.slice _ · count) grown.position)
  · cases movePosition with
    | true => exact congrArg (· + count) grown.position
    | false => exact grown.position

theorem advance (alike : writer.Alike other) (pools : pool.Alike pool') (count : Nat) :
    OnAlike Alike (writer.advance count pool) (other.advance count pool') := by
  obtain ⟨grown, after⟩ := alike.ensureFree pools count
  exact ⟨⟨grown.backing, grown.initialLength, grown.minGrow,
    congrArg (· + count) grown.position⟩, after⟩

theorem advanceTo (alike : writer.Alike other) (pools : pool.Alike pool') (position : Nat) :
    OnAlike Alike (writer.advanceTo position pool) (other.advanceTo position pool') := by
  obtain ⟨grown, after⟩ := alike.ensureCapacity pools position
  exact ⟨grown.at_position position, after⟩

theorem dispose (alike : writer.Alike other) (pools : pool.Alike pool') :
    OnAlike Alike (writer.dispose pool) (other.dispose pool') := by
  obtain ⟨released, after⟩ := alike.backing.dispose pools
  exact ⟨⟨released, alike.initialLength, alike.minGrow, rfl⟩, after⟩

/-! ### Moving cells -/

/-- The cells that are moved are shown before the writer grows, and so they are after it. -/
theorem moveWithin (alike : writer.Alike other) (pools : pool.Alike pool')
    (start size target : Nat) (movePosition : Bool) :
    SameOutcome (OnAlike Alike) (writer.moveWithin start size target movePosition pool)
      (other.moveWithin start size target movePosition pool') := by
  unfold Writer.moveWithin
  rw [← alike.capacity]
  split
  · exact .refused _
  rename_i inside
  split
  · exact .done (alike.ensureCapacity pools target)
  split
  · exact .refused _
  · rename_i small
    obtain ⟨grown, after⟩ := alike.ensureCapacity pools (target + size)
    have kept := writer.capacity_le_ensureCapacity pool (Nat.le_of_not_lt small)
    have shown : start + size ≤ (writer.ensureCapacity (target + size) pool).1.capacity := by
      omega
    refine .done ⟨grown.edit_at (Storage.respects_moveWithin shown target) ?_, after⟩
    cases movePosition with
    | true => rfl
    | false => exact grown.position

/-! ### Operations -/

theorem perform (alike : writer.Alike other) (pools : pool.Alike pool') (action : Action α) :
    SameAnswer Alike (writer.perform pool action) (other.perform pool' action) := by
  cases action with
  | append value => exact ⟨rfl, alike.append pools value⟩
  | appendRun run => exact ⟨rfl, alike.appendRun pools run⟩
  | appendEach run => exact ⟨rfl, alike.appendEach pools run⟩
  | acquire count movePosition content =>
    obtain ⟨handed, both⟩ := alike.acquire pools count movePosition content
    exact ⟨congrArg Reply.run handed, both⟩
  | advance count => exact ⟨rfl, alike.advance pools count⟩
  | advanceTo position => exact ⟨rfl, alike.advanceTo pools position⟩
  | moveWithin start size target movePosition =>
    have moved := alike.moveWithin pools start size target movePosition
    simp only [Writer.perform]
    generalize writer.moveWithin start size target movePosition pool = outcome at moved ⊢
    generalize other.moveWithin start size target movePosition pool' = outcome' at moved ⊢
    cases moved with
    | refused refusal => exact ⟨rfl, alike, pools⟩
    | done both => exact ⟨rfl, both⟩
  | setPosition position =>
    have moved := alike.setPosition position
    simp only [Writer.perform]
    generalize writer.setPosition position = outcome at moved ⊢
    generalize other.setPosition position = outcome' at moved ⊢
    cases moved with
    | refused refusal => exact ⟨rfl, alike, pools⟩
    | done moved => exact ⟨rfl, moved, pools⟩
  | reset => exact ⟨rfl, alike.at_position 0, pools⟩
  | fill value => exact ⟨rfl, alike.fill value, pools⟩
  | set index value =>
    have stored := alike.set? index value
    simp only [Writer.perform]
    generalize writer.set? index value = next at stored ⊢
    generalize other.set? index value = next' at stored ⊢
    cases stored with
    | none => exact ⟨rfl, alike, pools⟩
    | some stored => exact ⟨rfl, stored, pools⟩
  | setWritten index value =>
    have stored := alike.setWritten? index value
    simp only [Writer.perform]
    generalize writer.setWritten? index value = next at stored ⊢
    generalize other.setWritten? index value = next' at stored ⊢
    cases stored with
    | none => exact ⟨rfl, alike, pools⟩
    | some stored => exact ⟨rfl, stored, pools⟩
  | dispose => exact ⟨rfl, alike.dispose pools⟩

end Alike

/-! ### Fixed-width values -/

namespace Alike

variable {τ : Type} [Layout τ] {writer other : Writer UInt8} {pool pool' : Pool UInt8}

theorem write (alike : writer.Alike other) (pools : pool.Alike pool') (order : ByteOrder)
    (value : τ) :
    SameOutcome (SameAnswer Alike) (writer.write order value pool)
      (other.write order value pool') := by
  unfold Writer.write
  refine (SameOutcome.same _).bind fun _ _ _ => ?_
  exact .done ⟨rfl, (alike.acquire pools _ true _).state⟩

theorem read (alike : writer.Alike other) (order : ByteOrder) (movePosition : Bool) :
    SameOutcome (fun result result' : τ × Writer UInt8 =>
        result.1 = result'.1 ∧ result.2.Alike result'.2)
      (writer.read order movePosition) (other.read order movePosition) := by
  unfold Writer.read
  rw [← alike.freeCapacity, ← alike.position, ← alike.slice]
  refine (SameOutcome.same _).bind fun _ _ _ => (SameOutcome.same _).bind fun _ _ _ => ?_
  refine .done ⟨rfl, ?_⟩
  cases movePosition with
  | true => exact alike.at_position _
  | false => exact alike

end Alike

end Writer

end PooledBuffers
