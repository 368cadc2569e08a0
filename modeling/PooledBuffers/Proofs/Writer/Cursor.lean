import PooledBuffers.Proofs.Writer.Moving

/-!
# Where a move leaves the cursor

A move that is asked to takes the cursor along: it ends up behind the cells moved, so that these are
the last ones written. A move of no cells, or of cells onto themselves, is over before it comes to
the cursor and leaves it where it was, whatever it was asked to do.

* `Writer.position_ensureCapacity` — a growth does not touch the cursor;
* `Writer.position_moveWithin` — the cursor after any move, in any state;
* `Writer.Shows.written_moveWithin` — what is written ends with the cells moved;
* `Writer.cursor_behind_moved` — in every state that a writer can come into, the cursor is behind
  the cells moved if there were any to carry elsewhere, and otherwise only if it was there before.
-/

namespace PooledBuffers.Writer

variable {α : Type} [Element α]
variable {writer : Writer α} {pool : Pool α} {tape : Tape α} {position length : Nat}
variable {next : Writer α × Pool α} {start size target : Nat} {movePosition : Bool}

theorem position_ensureCapacity (writer : Writer α) (length : Nat) (pool : Pool α) :
    (writer.ensureCapacity length pool).1.position = writer.position := by
  unfold ensureCapacity
  split <;> rfl

/-- The cursor after a move is behind the cells moved, or where it was. -/
theorem position_moveWithin
    (moved : writer.moveWithin start size target movePosition pool = .ok next) :
    next.1.position = moveCursor writer.position start size target movePosition := by
  unfold Writer.moveWithin at moved
  split at moved
  · cases moved
  split at moved
  · rename_i trivially
    cases moved
    rw [position_ensureCapacity, moveCursor, if_neg (by omega)]
  split at moved
  · cases moved
  · rename_i carried _
    cases moved
    obtain ⟨something, elsewhere⟩ := not_or.mp carried
    have stays := position_ensureCapacity writer (target + size) pool
    cases movePosition
    · rw [moveCursor, if_neg (by simp)]
      exact stays
    · simp [moveCursor, something, elsewhere]

/-- A move that takes the cursor along makes the cells moved the last ones written, as they were
before it. -/
theorem Shows.written_moveWithin (shows : Shows (writer, pool) tape position length)
    (something : size ≠ 0) (elsewhere : start ≠ target)
    (moved : writer.moveWithin start size target true pool = .ok next) :
    ∃ front : Array α, front.size = target ∧
      next.1.written = front ++ writer.cells.extract start (start + size) := by
  have room : target + size ≤ Size.maxCapacity := by
    unfold Writer.moveWithin at moved
    split at moved
    · cases moved
    rw [if_neg (by omega)] at moved
    split at moved
    · cases moved
    · omega
  obtain ⟨source, after⟩ := shows.moveWithin_of_ok (by omega) moved
  have cursor : moveCursor position start size target true = target + size := by
    simp [moveCursor, something, elsewhere]
  rw [cursor] at after
  have block : (tape.move start size target).stretch target size = tape.stretch start size :=
    tape.stretch_move start target (Nat.le_of_eq (Nat.zero_add size))
  refine ⟨(tape.move start size target).stretch 0 target, Tape.size_stretch _ _ _, ?_⟩
  rw [after.written_eq (by omega), ← Tape.stretch_append, Nat.zero_add, block,
    shows.fits.cells_eq, shows.tape_eq, Tape.extract_stretch _ source, Nat.zero_add,
    Nat.add_sub_cancel_left]

/-- In every state that a writer can come into, a move that is not refused leaves the cursor alone
unless it is to take it along. One that is to do so puts it behind the cells moved, and makes these
the last ones written, if there are cells to carry to another place; if there are none, the cursor
stays, and it is behind the target only if it was there before. -/
theorem cursor_behind_moved (begins : Start α) (minGrow : Option Nat) (pool : Pool α)
    (reachable : pool.Reachable) (actions : List (Action α))
    (allocatable : (begins.make minGrow pool).1.Allocatable (begins.make minGrow pool).2 actions)
    (start size target : Nat) :
    let first := begins.make minGrow pool
    let last := first.1.run first.2 actions
    (∀ next, last.1.moveWithin start size target false last.2 = .ok next →
      next.1.position = last.1.position) ∧
    ∀ next, last.1.moveWithin start size target true last.2 = .ok next →
      (next.1.position = target + size ↔
        (size ≠ 0 ∧ start ≠ target) ∨ last.1.position = target + size) ∧
      (size ≠ 0 → start ≠ target → ∃ front : Array α, front.size = target ∧
        next.1.written = front ++ last.1.cells.extract start (start + size)) := by
  intro first last
  have shows := ((begins.simulates minGrow reachable.sound).run actions allocatable).shows
  refine ⟨fun next moved => ?_, fun next moved => ⟨?_, fun something elsewhere => ?_⟩⟩
  · rw [position_moveWithin moved, moveCursor, if_neg (by simp)]
  · have cursor := position_moveWithin moved
    by_cases carried : size ≠ 0 ∧ start ≠ target
    · have behind : next.1.position = target + size := by simp [cursor, moveCursor, carried]
      exact iff_of_true behind (.inl carried)
    · have stays : next.1.position = last.1.position := by simp [cursor, moveCursor, carried]
      rw [stays, or_iff_right carried]
  · exact shows.written_moveWithin something elsewhere moved

/-- Two of four cells moved behind the end of the memory, with the cursor. -/
theorem cursor_behind_moved_outgrown :
    let first := (Start.memory #[(1 : UInt8), 2, 3, 4]).make none Pool.standard
    let actions := [.appendRun #[8, 9]]
    let last := first.1.run first.2 actions
    (Pool.standard : Pool UInt8).Reachable ∧ first.1.Allocatable first.2 actions ∧
      ∃ next, last.1.moveWithin 1 2 4 true last.2 = .ok next ∧ next.1.position = 6 ∧
        ∃ front : Array UInt8, front.size = 4 ∧ next.1.written = front ++ #[9, 3] := by
  intro first actions last
  have allocatable : first.1.Allocatable first.2 actions := by decide
  obtain ⟨-, along⟩ := cursor_behind_moved (.memory #[1, 2, 3, 4]) none Pool.standard
    Pool.reachable_standard actions allocatable 1 2 4
  have moved : ∃ next, last.1.moveWithin 1 2 4 true last.2 = .ok next := ⟨_, rfl⟩
  obtain ⟨next, moved⟩ := moved
  obtain ⟨behind, ends⟩ := along next moved
  exact ⟨Pool.reachable_standard, allocatable, next, moved,
    behind.mpr (.inl ⟨by decide, by decide⟩), ends (by decide) (by decide)⟩

/-- A move of no cells to the end of the memory, and one of a cell onto itself, leave the cursor in
the middle although they are to take it along. -/
theorem cursor_left_behind :
    let first := (Start.rented 4 : Start UInt8).make none Pool.standard
    let last := first.1.run first.2 [.appendRun #[1, 2]]
    (∃ next, last.1.moveWithin 0 0 4 true last.2 = .ok next ∧ next.1.position ≠ 4 + 0) ∧
      ∃ next, last.1.moveWithin 0 1 0 true last.2 = .ok next ∧ next.1.position ≠ 0 + 1 := by
  intro first last
  exact ⟨⟨_, rfl, by decide⟩, ⟨_, rfl, by decide⟩⟩

end PooledBuffers.Writer
