import PooledBuffers.Proofs.Writer.Memory

/-!
# The operations of a writer on its tape

One statement for each operation: from a writer that shows some tape, it makes one that shows the
tape edited in the same way. The hypotheses are that the cursor lies in memory and that no memory
past the bound on growth is needed.
-/

namespace PooledBuffers.Writer

variable {α : Type} [Element α]
variable {writer : Writer α} {pool : Pool α} {tape : Tape α} {position length : Nat}

/-! ## Edits in place -/

/-- A run written over memory that is there, with the cursor put anywhere. -/
theorem Shows.overwrite (shows : Shows (writer, pool) tape position length) {start : Nat}
    {run : Array α} (inside : start + run.size ≤ length) (next : Nat) :
    Shows
      ({ writer with
          backing := writer.backing.edit (Storage.overwrite · start run)
          position := next },
        pool)
      (tape.put start run) next length := by
  have keeps : ∀ cells, (Storage.overwrite cells start run).size = cells.size := by simp
  refine ⟨shows.fits.edit keeps, shows.sound, ?_, rfl, ?_⟩
  · rw [← shows.tape_eq]
    show Tape.ofArray (Backing.edit _ _).cells = (Tape.ofArray writer.cells).put start run
    rw [shows.fits.cells_overwrite]
    apply Tape.ofArray_overwrite
    show start + run.size ≤ writer.cells.size
    rw [Fits.size_cells shows.fits]
    exact Nat.le_trans inside shows.length_le
  · show length ≤ (Backing.edit _ _).length
    rw [Backing.length_edit _ keeps]
    exact shows.length_le

theorem Shows.edit_overwrite (shows : Shows (writer, pool) tape position length) {start : Nat}
    {run : Array α} (inside : start + run.size ≤ length) :
    Shows (writer.edit (Storage.overwrite · start run), pool) (tape.put start run) position
      length := by
  have edited := shows.overwrite inside writer.position
  rw [show writer.position = position from shows.position_eq] at edited
  refine { edited with position_eq := shows.position_eq }

theorem Shows.set (shows : Shows (writer, pool) tape position length) {place : Nat} (value : α)
    (inside : place < length) :
    Shows (writer.edit (·.setIfInBounds place value), pool) (tape.put place #[value]) position
      length := by
  have inside' : place + (#[value] : Array α).size ≤ length := inside
  simpa only [Storage.overwrite_singleton] using shows.edit_overwrite inside'

/-- The cursor can be put anywhere without an effect on the memory. -/
theorem Shows.at (shows : Shows (writer, pool) tape position length) (next : Nat) :
    Shows ({ writer with position := next }, pool) tape next length :=
  { shows with position_eq := rfl }

theorem Shows.fill (shows : Shows (writer, pool) tape position length) (value : α) :
    Shows (writer.fill value, pool) (tape.put 0 (Array.replicate writer.capacity value)) position
      writer.capacity :=
  shows.exact.edit_overwrite (by simp)

/-! ## Writing at the cursor -/

theorem Shows.append (shows : Shows (writer, pool) tape position length)
    (cursor : position ≤ length) (small : position + 1 ≤ Size.maxCapacity) (value : α) :
    Shows (writer.append value pool) (tape.put position #[value]) (position + 1)
      (max length (position + 1)) := by
  have free := shows.ensureFree cursor small
  unfold Writer.append
  generalize writer.ensureFree 1 pool = state at free ⊢
  obtain ⟨next, rest⟩ := state
  obtain rfl : next.position = position := free.position_eq
  have inside : next.position + (#[value] : Array α).size ≤ max length (next.position + 1) :=
    Nat.le_max_right _ _
  exact free.overwrite inside _

theorem Shows.appendRun (shows : Shows (writer, pool) tape position length)
    (cursor : position ≤ length) {run : Array α}
    (small : position + run.size ≤ Size.maxCapacity) :
    Shows (writer.appendRun run pool) (tape.put position run) (position + run.size)
      (max length (position + run.size)) := by
  have free := shows.ensureFree cursor small
  unfold Writer.appendRun
  generalize writer.ensureFree run.size pool = state at free ⊢
  obtain ⟨next, rest⟩ := state
  obtain rfl : next.position = position := free.position_eq
  exact free.overwrite (by omega) _

theorem Shows.acquire (shows : Shows (writer, pool) tape position length)
    (cursor : position ≤ length) {count : Nat} (small : position + count ≤ Size.maxCapacity)
    (move : Bool) (content : Array α) :
    (writer.acquire count move content pool).1 = tape.stretch position count ∧
    Shows (writer.acquire count move content pool).2
      (tape.put position (content.extract 0 count))
      (if move then position + count else position) (max length (position + count)) := by
  have free := shows.ensureFree cursor small
  unfold Writer.acquire
  generalize writer.ensureFree count pool = state at free ⊢
  obtain ⟨next, rest⟩ := state
  obtain rfl : next.position = position := free.position_eq
  have cut : (content.extract 0 count).size ≤ count := by
    rw [Array.size_extract]
    omega
  exact ⟨free.slice_eq (by omega), free.overwrite (by omega) _⟩

theorem Shows.advance (shows : Shows (writer, pool) tape position length)
    (cursor : position ≤ length) {count : Nat} (small : position + count ≤ Size.maxCapacity) :
    Shows (writer.advance count pool) tape (position + count) (max length (position + count)) := by
  have free := shows.ensureFree cursor small
  unfold Writer.advance
  generalize writer.ensureFree count pool = state at free ⊢
  obtain ⟨next, rest⟩ := state
  obtain rfl : next.position = position := free.position_eq
  exact free.at _

theorem Shows.advanceTo (shows : Shows (writer, pool) tape position length) {target : Nat}
    (small : target ≤ Size.maxCapacity) :
    Shows (writer.advanceTo target pool) tape target (max length target) := by
  have room := shows.ensureCapacity small
  unfold Writer.advanceTo
  generalize writer.ensureCapacity target pool = state at room ⊢
  exact room.at _

theorem Shows.dispose (shows : Shows (writer, pool) tape position length) :
    Shows (writer.dispose pool) Tape.empty 0 0 := by
  have sound : (writer.backing.dispose pool).2.Sound := shows.fits.sound_dispose shows.sound
  have fits := Backing.fits_dispose writer.backing pool
  have cells := Backing.cells_dispose writer.backing pool
  unfold Writer.dispose
  generalize writer.backing.dispose pool = state at sound fits cells ⊢
  obtain ⟨backing, rest⟩ := state
  refine ⟨fits, sound, ?_, rfl, Nat.zero_le _⟩
  show Tape.ofArray backing.cells = Tape.empty
  rw [cells, Tape.ofArray_empty]

/-! ## Several elements one by one -/

theorem appendEach_eq_foldl (writer : Writer α) (run : Array α) (pool : Pool α) :
    writer.appendEach run pool =
      run.toList.foldl (fun state value => state.1.append value state.2) (writer, pool) := by
  rw [appendEach, ← Array.foldl_toList]

theorem Shows.foldl_append (run : List α) :
    ∀ {state : Writer α × Pool α} {tape : Tape α} {position length : Nat},
      Shows state tape position length → position ≤ length →
      position + run.length ≤ Size.maxCapacity →
      Shows (run.foldl (fun state value => state.1.append value state.2) state)
        (tape.put position run.toArray) (position + run.length)
        (max length (position + run.length)) := by
  induction run with
  | nil =>
    intro state tape position length shows cursor _
    simpa [Nat.max_eq_left cursor] using shows
  | cons value rest ih =>
    intro state tape position length shows cursor small
    rw [List.length_cons] at small
    have first := shows.append cursor (by omega) value
    have others := ih first (by omega) (by omega)
    have joined : (tape.put position #[value]).put (position + 1) rest.toArray =
        tape.put position (value :: rest).toArray := by
      have runs : (value :: rest).toArray = #[value] ++ rest.toArray := by simp
      rw [runs]
      exact tape.put_put_append position #[value] rest.toArray
    have stop : position + 1 + rest.length = position + (rest.length + 1) := by omega
    have room : max (max length (position + 1)) (position + 1 + rest.length) =
        max length (position + (rest.length + 1)) := by omega
    rw [joined, room, stop] at others
    exact others

theorem Shows.appendEach (shows : Shows (writer, pool) tape position length)
    (cursor : position ≤ length) {run : Array α}
    (small : position + run.size ≤ Size.maxCapacity) :
    Shows (writer.appendEach run pool) (tape.put position run) (position + run.size)
      (max length (position + run.size)) := by
  rw [appendEach_eq_foldl]
  simpa using shows.foldl_append run.toList cursor small

/-! ## Moving -/

/-- The edit that a move makes, with the cursor put anywhere. -/
theorem Shows.move (shows : Shows (writer, pool) tape position length) {start size target : Nat}
    (source : start + size ≤ length) (room : target + size ≤ length) (next : Nat) :
    Shows
      ({ writer with
          backing := writer.backing.edit (Storage.moveWithin · start size target)
          position := next },
        pool)
      (tape.move start size target) next length := by
  have keeps : ∀ cells : Array α, (Storage.moveWithin cells start size target).size = cells.size :=
    by simp
  have capacity := shows.length_le
  have size_cells := Fits.size_cells shows.fits
  refine ⟨shows.fits.edit keeps, shows.sound, ?_, rfl, ?_⟩
  · rw [← shows.tape_eq]
    show Tape.ofArray (Backing.edit _ _).cells = (Tape.ofArray writer.cells).move start size target
    rw [shows.fits.cells_moveWithin (Nat.le_trans source capacity)]
    apply Tape.ofArray_moveWithin <;> (show _ ≤ writer.cells.size) <;> rw [size_cells]
    · exact Nat.le_trans source capacity
    · exact Nat.le_trans room capacity
  · show length ≤ (Backing.edit _ _).length
    rw [Backing.length_edit _ keeps]
    exact capacity

/-- Where the cursor is after a move. Moving nothing, or moving onto itself, leaves it. -/
def moveCursor (position start size target : Nat) (movePosition : Bool) : Nat :=
  if movePosition ∧ size ≠ 0 ∧ start ≠ target then target + size else position

theorem Shows.moveWithin (shows : Shows (writer, pool) tape position length)
    {start size target : Nat} (source : start + size ≤ length)
    (small : target + size ≤ Size.maxCapacity) (movePosition : Bool) :
    ∃ next, writer.moveWithin start size target movePosition pool = .ok next ∧
      Shows next (tape.move start size target)
        (moveCursor position start size target movePosition) (max length (target + size)) := by
  have enough := shows.length_le
  have place := shows.position_eq
  simp only at enough place
  unfold Writer.moveWithin
  rw [if_neg (by omega)]
  by_cases trivially : size = 0 ∨ start = target
  · rw [if_pos trivially]
    refine ⟨_, rfl, ?_⟩
    have stays : moveCursor position start size target movePosition = position := by
      rw [moveCursor, if_neg (by omega)]
    have small' : target ≤ Size.maxCapacity := by omega
    have room := shows.ensureCapacity small'
    rw [stays]
    rcases trivially with rfl | rfl
    · simpa using room
    · rw [Tape.move_self]
      exact room.mono (by omega)
  · have cursor : moveCursor position start size target movePosition =
        if movePosition then target + size else position := by
      obtain ⟨something, elsewhere⟩ := not_or.mp trivially
      simp [moveCursor, something, elsewhere]
    rw [if_neg trivially, if_neg (by omega), cursor]
    have room := shows.ensureCapacity small
    generalize writer.ensureCapacity (target + size) pool = state at room ⊢
    obtain ⟨next, rest⟩ := state
    refine ⟨_, rfl, ?_⟩
    obtain rfl : next.position = position := room.position_eq
    exact room.move (by omega) (by omega) _

/-! ## Where nothing grows -/

/-- The cells before the cursor, read off the tape. -/
theorem Shows.written_eq (shows : Shows (writer, pool) tape position length)
    (cursor : position ≤ length) : writer.written = tape.stretch 0 position := by
  rw [written, show writer.position = position from shows.position_eq]
  exact shows.slice_eq (by omega)

/-- A writer with a run written over the cells at its cursor, which steps over it. -/
def stamp (writer : Writer α) (run : Array α) : Writer α :=
  { writer with
    backing := writer.backing.edit (Storage.overwrite · writer.position run)
    position := writer.position + run.size }

omit [Element α] in
@[simp] theorem capacity_stamp (writer : Writer α) (run : Array α) :
    (writer.stamp run).capacity = writer.capacity :=
  Backing.length_edit _ (by simp)

theorem Shows.stamp (shows : Shows (writer, pool) tape position length) {run : Array α}
    (inside : position + run.size ≤ length) :
    Shows (writer.stamp run, pool) (tape.put position run) (position + run.size) length := by
  obtain rfl : writer.position = position := shows.position_eq
  exact shows.overwrite inside _

theorem Shows.written_stamp (shows : Shows (writer, pool) tape position length) {run : Array α}
    (inside : position + run.size ≤ length) :
    (writer.stamp run).written = writer.written ++ run := by
  rw [(shows.stamp inside).written_eq inside, shows.written_eq (by omega),
    ← tape.stretch_put_append]

theorem ensureFree_of_le {count : Nat} (h : writer.position + count ≤ writer.capacity) :
    writer.ensureFree count pool = (writer, pool) :=
  if_neg (by unfold freeCapacity; omega)

theorem ensureCapacity_of_le {needed : Nat} (h : needed ≤ writer.capacity) :
    writer.ensureCapacity needed pool = (writer, pool) :=
  if_neg (Nat.not_lt_of_le h)

theorem append_of_le {value : α} (h : writer.position + 1 ≤ writer.capacity) :
    writer.append value pool = (writer.stamp #[value], pool) := by
  rw [append, ensureFree_of_le h]
  rfl

theorem appendRun_of_le {run : Array α} (h : writer.position + run.size ≤ writer.capacity) :
    writer.appendRun run pool = (writer.stamp run, pool) := by
  rw [appendRun, ensureFree_of_le h]
  rfl

theorem acquire_of_le {content : Array α}
    (h : writer.position + content.size ≤ writer.capacity) :
    (writer.acquire content.size true content pool).2 = (writer.stamp content, pool) := by
  rw [acquire, ensureFree_of_le h]
  simp [Writer.stamp]

/-- Cells moved to the front take the place of others, so that nothing grows. -/
theorem Shows.moveToFront (shows : Shows (writer, pool) tape position length) {start size : Nat}
    (source : start + size ≤ length) (small : writer.capacity ≤ Size.maxCapacity) :
    ∃ next, writer.moveWithin start size 0 false pool = .ok (next, pool) ∧
      Shows (next, pool) (tape.move start size 0) position length ∧
      next.capacity = writer.capacity := by
  have enough := shows.length_le
  simp only at enough
  unfold Writer.moveWithin
  rw [if_neg (by omega)]
  by_cases trivially : size = 0 ∨ start = 0
  · rw [if_pos trivially, ensureCapacity_of_le (Nat.zero_le _)]
    refine ⟨writer, rfl, ?_, rfl⟩
    rcases trivially with rfl | rfl
    · simpa using shows
    · simpa using shows
  · rw [if_neg trivially, if_neg (by omega), ensureCapacity_of_le (by omega)]
    obtain rfl : writer.position = position := shows.position_eq
    exact ⟨_, rfl, shows.move source (by omega) _, Backing.length_edit _ (by simp)⟩

end PooledBuffers.Writer
