import PooledBuffers.Proofs.Writer.Refinement

/-!
# What a move leaves in memory

A writer moves a stretch of its memory to another place, in front of it or behind it, overlapping it
or not, and grows first where the target ends behind its memory. Seen cell by cell:

* `Writer.Displaces` — the cells of the target are those of the source as they were, all others are
  as they were, and what a growth added is blank;
* `Writer.Shows.moveWithin_of_ok` — the tape after a move that was not refused;
* `Writer.Shows.displaces` — so every such move displaces its cells and nothing else;
* `Writer.moves_stretch` — in every state that a writer can come into.
-/

namespace PooledBuffers.Writer

variable {α : Type} [Element α]
variable {writer : Writer α} {pool : Pool α} {tape : Tape α} {position length : Nat}
variable {next : Writer α × Pool α} {start size target : Nat} {movePosition : Bool}

/-- What lies in memory is read off the tape. -/
theorem Shows.getElem?_cells {state : Writer α × Pool α}
    (shows : Shows state tape position length) {k : Nat} (inside : k < state.1.capacity) :
    state.1.cells[k]? = some (tape k) := by
  rw [shows.fits.cells_eq, Array.getElem?_eq_getElem (by simpa using inside),
    Tape.getElem_stretch, Nat.zero_add, shows.tape_eq]

/-- Behind the memory of a writer its tape is blank. -/
theorem Shows.tape_of_le (shows : Shows (writer, pool) tape position length) {k : Nat}
    (behind : writer.capacity ≤ k) : tape k = Element.blank := by
  rw [← shows.tape_eq]
  exact Tape.ofArray_apply_of_le (Nat.le_trans (Nat.le_of_eq (Fits.size_cells shows.fits)) behind)

/-- A move that is not refused: its source lies in memory, and the tape is the one moved. -/
theorem Shows.moveWithin_of_ok (shows : Shows (writer, pool) tape position length)
    (small : target ≤ Size.maxCapacity)
    (moved : writer.moveWithin start size target movePosition pool = .ok next) :
    start + size ≤ writer.capacity ∧
      Shows next (tape.move start size target)
        (moveCursor position start size target movePosition)
        (max writer.capacity (target + size)) := by
  by_cases source : start + size ≤ writer.capacity
  · refine ⟨source, ?_⟩
    by_cases room : target + size ≤ Size.maxCapacity
    · obtain ⟨other, same, result⟩ := shows.exact.moveWithin source room movePosition
      rw [moved] at same
      cases same
      exact result
    · -- Such a target is refused, but for a move onto itself, which needs no room.
      unfold Writer.moveWithin at moved
      rw [if_neg (Nat.not_lt_of_le source)] at moved
      by_cases trivially : size = 0 ∨ start = target
      · rw [if_pos trivially, ensureCapacity_of_le (by omega)] at moved
        cases moved
        have stays : moveCursor position start size target movePosition = position := by
          rw [moveCursor, if_neg (by omega)]
        obtain rfl : start = target := by omega
        rw [stays, Tape.move_self]
        exact shows.exact.mono (by omega)
      · rw [if_neg trivially, if_pos (by omega)] at moved
        cases moved
  · unfold Writer.moveWithin at moved
    rw [if_pos (Nat.lt_of_not_le source)] at moved
    cases moved

/-- The writer that `next` comes from has moved `size` cells from `start` to `target`, and nothing
else has happened to its cells. -/
structure Displaces (writer next : Writer α) (start size target : Nat) : Prop where
  /-- The memory has as many cells as it says. -/
  sizes : writer.cells.size = writer.capacity ∧ next.cells.size = next.capacity
  /-- There is a cell for every one that is moved, and it holds what the other one held. -/
  moved : ∀ i < size, ∃ value,
    writer.cells[start + i]? = some value ∧ next.cells[target + i]? = some value
  kept : ∀ k < writer.capacity, k < target ∨ target + size ≤ k →
    next.cells[k]? = writer.cells[k]?
  added : ∀ k < next.capacity, writer.capacity ≤ k → k < target ∨ target + size ≤ k →
    next.cells[k]? = some Element.blank
  reaches : target + size ≤ next.capacity
  not_shrunk : writer.capacity ≤ next.capacity

theorem Shows.displaces (shows : Shows (writer, pool) tape position length)
    (small : target ≤ Size.maxCapacity)
    (moved : writer.moveWithin start size target movePosition pool = .ok next) :
    writer.Displaces next.1 start size target := by
  obtain ⟨source, after⟩ := shows.moveWithin_of_ok small moved
  have enough := after.length_le
  have elsewhere (k : Nat) (outside : k < target ∨ target + size ≤ k) :
      tape.move start size target k = tape k := by
    rcases outside with front | behind
    · exact Tape.move_apply_of_lt front
    · exact Tape.move_apply_of_le behind
  refine ⟨⟨shows.fits.size_cells, after.fits.size_cells⟩, fun i within => ?_,
    fun k inside outside => ?_, fun k inside new outside => ?_, by omega, by omega⟩
  · refine ⟨tape (start + i), shows.getElem?_cells (show start + i < writer.capacity by omega), ?_⟩
    have place : target + i - target = i := by omega
    rw [after.getElem?_cells (by omega), Tape.move_apply_of_mem (by omega) (by omega), place]
  · rw [after.getElem?_cells (by omega), shows.getElem?_cells inside, elsewhere k outside]
  · rw [after.getElem?_cells inside, elsewhere k outside, shows.tape_of_le new]

/-- A target that lies in memory needs no growth: the pool is left alone, and so is the memory's
length and where it comes from. -/
theorem moveWithin_of_le (room : target + size ≤ writer.capacity)
    (moved : writer.moveWithin start size target movePosition pool = .ok next) :
    next.2 = pool ∧ next.1.capacity = writer.capacity ∧ next.1.isGrown = writer.isGrown := by
  unfold Writer.moveWithin at moved
  split at moved
  · cases moved
  split at moved
  · rw [ensureCapacity_of_le (by omega)] at moved
    cases moved
    exact ⟨rfl, rfl, rfl⟩
  split at moved
  · cases moved
  · rw [ensureCapacity_of_le room] at moved
    cases moved
    refine ⟨rfl, Backing.length_edit _ fun _ => Storage.size_moveWithin _ _ _ _, ?_⟩
    show (writer.backing.edit _).isGrown = writer.backing.isGrown
    cases writer.backing <;> rfl

/-- In every state that a writer can come into, a move that is not refused copies its source as it
was, however source and target lie to each other, blanks what a growth adds, and leaves all other
cells as they were; and it grows nothing where the target lies in memory. A source in memory is
refused for no target that memory could reach to. -/
theorem moves_stretch (begins : Start α) (minGrow : Option Nat) (pool : Pool α)
    (reachable : pool.Reachable) (actions : List (Action α))
    (allocatable : (begins.make minGrow pool).1.Allocatable (begins.make minGrow pool).2 actions)
    (start size target : Nat) (movePosition : Bool) (small : target ≤ Size.maxCapacity) :
    let first := begins.make minGrow pool
    let last := first.1.run first.2 actions
    (∀ next, last.1.moveWithin start size target movePosition last.2 = .ok next →
      last.1.Displaces next.1 start size target ∧
      (target + size ≤ last.1.capacity →
        next.2 = last.2 ∧ next.1.capacity = last.1.capacity ∧
          next.1.isGrown = last.1.isGrown)) ∧
    (start + size ≤ last.1.capacity → target + size ≤ Size.maxCapacity →
      ∃ next, last.1.moveWithin start size target movePosition last.2 = .ok next) := by
  intro first last
  have simulates := (begins.simulates minGrow reachable.sound).run actions allocatable
  have shows := simulates.shows
  refine ⟨fun next moved => ⟨shows.displaces small moved, fun room => ?_⟩, fun source room => ?_⟩
  · exact moveWithin_of_le room moved
  · obtain ⟨next, moved, -⟩ := shows.moveWithin source room movePosition
    exact ⟨next, moved⟩

/-- Four cells of the caller's, two of them written to, moved two further: over themselves and past
their end. -/
theorem moves_stretch_outgrown :
    let first := (Start.memory #[(1 : UInt8), 2, 3, 4]).make none Pool.standard
    let actions := [.appendRun #[8, 9]]
    let last := first.1.run first.2 actions
    (Pool.standard : Pool UInt8).Reachable ∧ first.1.Allocatable first.2 actions ∧
      2 ≤ Size.maxCapacity ∧
      ∃ next, last.1.moveWithin 0 4 2 true last.2 = .ok next ∧
        last.1.Displaces next.1 0 4 2 := by
  intro first actions last
  have allocatable : first.1.Allocatable first.2 actions := by decide
  have small : 2 ≤ Size.maxCapacity := by decide
  obtain ⟨displaces, returns⟩ := moves_stretch (.memory #[1, 2, 3, 4]) none Pool.standard
    Pool.reachable_standard actions allocatable 0 4 2 true small
  obtain ⟨next, moved⟩ := returns (by decide) (by decide)
  exact ⟨Pool.reachable_standard, allocatable, small, next, moved, (displaces next moved).1⟩

end PooledBuffers.Writer
