import PooledBuffers.Proofs.Bounds
import PooledBuffers.Proofs.Writer.Operations
import PooledBuffers.Writer.Action

/-!
# Bounds that a writer relies on

`Writer.check` goes through an operation and checks every bound that it relies on: the array behind
the memory is as long as what is shown of it, the cursor is not behind the end when the free cells
are counted, the old contents fit into the new memory at a growth, and every stretch that is read
or written lies in memory.

Main statements: `Writer.Shows.check_eq_ok` — a writer whose cursor lies in memory passes every
check, in all operations; `Writer.checkRun` does so for a whole run.
-/

namespace PooledBuffers.Writer

variable {α : Type} [Element α]

/-! ## The checks, in the order of the operations -/

/-- The array behind the memory is as long as what is shown of it. -/
def checkView (writer : Writer α) : Except Overrun Unit :=
  demand writer.capacity writer.cells.size

/-- A stretch lies in memory. -/
def checkStretch (writer : Writer α) (start count : Nat) : Except Overrun Unit := do
  writer.checkView
  demand (start + count) writer.capacity

/-- The old contents are there, and fit into the new memory, which is as long as it says. -/
def checkGrow (writer : Writer α) (requested : Nat) (pool : Pool α) : Except Overrun Unit := do
  writer.checkView
  (writer.grow requested pool).1.checkView
  demand writer.capacity (writer.grow requested pool).1.capacity

def checkEnsureFree (writer : Writer α) (count : Nat) (pool : Pool α) :
    Except Overrun Unit := do
  writer.checkView
  demand writer.position writer.capacity
  if writer.freeCapacity < count then writer.checkGrow (count - writer.freeCapacity) pool

def checkEnsureCapacity (writer : Writer α) (length : Nat) (pool : Pool α) :
    Except Overrun Unit := do
  writer.checkView
  if writer.capacity < length then writer.checkGrow (length - writer.capacity) pool

/-- Room for `count` cells at the cursor, which are then written. -/
def checkWrite (writer : Writer α) (count : Nat) (pool : Pool α) : Except Overrun Unit := do
  writer.checkEnsureFree count pool
  (writer.ensureFree count pool).1.checkStretch (writer.ensureFree count pool).1.position count

def checkEach (writer : Writer α) (pool : Pool α) : List α → Except Overrun Unit
  | [] => .ok ()
  | value :: rest => do
    writer.checkWrite 1 pool
    (writer.append value pool).1.checkEach (writer.append value pool).2 rest

/-- The checks of a move; a move that is refused does not come to the later ones. -/
def checkMove (writer : Writer α) (start size target : Nat) (pool : Pool α) :
    Except Overrun Unit := do
  writer.checkView
  if start + size ≤ writer.capacity then
    if size = 0 ∨ start = target then writer.checkEnsureCapacity target pool
    else if target + size ≤ Size.maxCapacity then
      writer.checkEnsureCapacity (target + size) pool
      (writer.ensureCapacity (target + size) pool).1.checkStretch start size
      (writer.ensureCapacity (target + size) pool).1.checkStretch target size

/-- Checks the bounds that an operation relies on. -/
def check (writer : Writer α) (pool : Pool α) : Action α → Except Overrun Unit
  | .append _ => writer.checkWrite 1 pool
  | .appendRun run => writer.checkWrite run.size pool
  | .appendEach run => writer.checkEach pool run.toList
  | .acquire count _ _ => writer.checkWrite count pool
  | .advance count => writer.checkEnsureFree count pool
  | .advanceTo position => writer.checkEnsureCapacity position pool
  | .moveWithin start size target _ => writer.checkMove start size target pool
  | .setPosition _ | .fill _ | .set .. => writer.checkView
  | .setWritten .. => writer.checkStretch 0 writer.position
  | .reset | .dispose => .ok ()

/-- Checks the bounds of a run of operations. -/
def checkRun (writer : Writer α) (pool : Pool α) : List (Action α) → Except Overrun Unit
  | [] => .ok ()
  | action :: rest => do
    writer.check pool action
    (writer.perform pool action).2.1.checkRun (writer.perform pool action).2.2 rest

/-! ## Writers that pass them -/

variable {writer : Writer α} {pool : Pool α} {tape : Tape α} {position length : Nat}

omit [Element α] in
theorem Fits.checkView_eq_ok (fits : writer.Fits) : writer.checkView = .ok () :=
  demand_eq_ok (Nat.le_of_eq fits.size_cells.symm)

theorem Shows.checkView_eq_ok (shows : Shows (writer, pool) tape position length) :
    writer.checkView = .ok () :=
  Fits.checkView_eq_ok shows.fits

theorem Shows.checkStretch_eq_ok {state : Writer α × Pool α}
    (shows : Shows state tape position length) {start count : Nat} (h : start + count ≤ length) :
    state.1.checkStretch start count = .ok () := by
  rw [checkStretch, check_bind (Fits.checkView_eq_ok shows.fits)]
  exact demand_eq_ok (Nat.le_trans h shows.length_le)

theorem Shows.checkGrow_eq_ok (shows : Shows (writer, pool) tape position length)
    {requested : Nat} (small : writer.capacity + requested ≤ Size.maxCapacity) :
    writer.checkGrow requested pool = .ok () := by
  have grown := shows.grow small
  rw [checkGrow, check_bind shows.checkView_eq_ok,
    check_bind (Fits.checkView_eq_ok grown.fits)]
  exact demand_eq_ok (Nat.le_trans (Nat.le_add_right _ _) grown.length_le)

theorem Shows.checkEnsureFree_eq_ok (shows : Shows (writer, pool) tape position length)
    (cursor : position ≤ length) {count : Nat} (small : position + count ≤ Size.maxCapacity) :
    writer.checkEnsureFree count pool = .ok () := by
  have room := shows.length_le
  have place := shows.position_eq
  simp only at room place
  rw [checkEnsureFree, check_bind shows.checkView_eq_ok, check_bind (demand_eq_ok (by omega))]
  unfold freeCapacity
  split
  · exact shows.checkGrow_eq_ok (by omega)
  · rfl

theorem Shows.checkEnsureCapacity_eq_ok (shows : Shows (writer, pool) tape position length)
    {needed : Nat} (small : needed ≤ Size.maxCapacity) :
    writer.checkEnsureCapacity needed pool = .ok () := by
  rw [checkEnsureCapacity, check_bind shows.checkView_eq_ok]
  split
  · exact shows.checkGrow_eq_ok (by omega)
  · rfl

theorem Shows.checkWrite_eq_ok (shows : Shows (writer, pool) tape position length)
    (cursor : position ≤ length) {count : Nat} (small : position + count ≤ Size.maxCapacity) :
    writer.checkWrite count pool = .ok () := by
  have free := shows.ensureFree cursor small
  rw [checkWrite, check_bind (shows.checkEnsureFree_eq_ok cursor small), free.position_eq]
  exact free.checkStretch_eq_ok (Nat.le_max_right _ _)

theorem Shows.checkEach_eq_ok (run : List α) :
    ∀ {writer : Writer α} {pool : Pool α} {tape : Tape α} {position length : Nat},
      Shows (writer, pool) tape position length → position ≤ length →
      position + run.length ≤ Size.maxCapacity → writer.checkEach pool run = .ok () := by
  induction run with
  | nil => intros; rfl
  | cons value rest ih =>
    intro writer pool tape position length shows cursor small
    rw [List.length_cons] at small
    -- Each value is put where the one before it has left the cursor.
    have first := shows.append cursor (by omega) value
    rw [checkEach, check_bind (shows.checkWrite_eq_ok cursor (by omega))]
    exact ih first (by omega) (by omega)

theorem Shows.checkMove_eq_ok (shows : Shows (writer, pool) tape position length)
    {start size target : Nat}
    (small : start + size ≤ writer.capacity → size = 0 ∨ start = target →
      target ≤ Size.maxCapacity) :
    writer.checkMove start size target pool = .ok () := by
  rw [checkMove, check_bind shows.checkView_eq_ok]
  -- The cases are those of the move itself, which is refused before anything is grown.
  split
  · rename_i source
    split
    · rename_i trivially
      exact shows.checkEnsureCapacity_eq_ok (small source trivially)
    · split
      · rename_i enough
        have room := shows.exact.ensureCapacity enough
        have read := room.checkStretch_eq_ok (Nat.le_trans source (Nat.le_max_left _ _))
        rw [check_bind (shows.checkEnsureCapacity_eq_ok enough), check_bind read]
        exact room.checkStretch_eq_ok (Nat.le_max_right _ _)
      · rfl
  · rfl

/-- The end of memory that an operation needs and does not check itself. -/
def reach (writer : Writer α) : Action α → Nat
  | .append _ => writer.position + 1
  | .appendRun run | .appendEach run => writer.position + run.size
  | .acquire count _ _ | .advance count => writer.position + count
  | .advanceTo position => position
  | .moveWithin start size target _ =>
    if start + size ≤ writer.capacity ∧ (size = 0 ∨ start = target) then target else 0
  | .setPosition _ | .reset | .fill _ | .set .. | .setWritten .. | .dispose => 0

/-- Where the cursor lies in memory, every operation keeps to its bounds. -/
theorem Shows.check_eq_ok (shows : Shows (writer, pool) tape position length)
    (cursor : position ≤ length) (action : Action α)
    (small : writer.reach action ≤ Size.maxCapacity) : writer.check pool action = .ok () := by
  have place := shows.position_eq
  simp only at place
  subst place
  cases action with
  | append value => exact shows.checkWrite_eq_ok cursor small
  | appendRun run => exact shows.checkWrite_eq_ok cursor small
  | appendEach run => exact shows.checkEach_eq_ok run.toList cursor small
  | acquire count move content => exact shows.checkWrite_eq_ok cursor small
  | advance count => exact shows.checkEnsureFree_eq_ok cursor small
  | advanceTo target => exact shows.checkEnsureCapacity_eq_ok small
  | moveWithin start size target move =>
    refine shows.checkMove_eq_ok fun source trivially => ?_
    rwa [reach, if_pos ⟨source, trivially⟩] at small
  | setPosition target => exact shows.checkView_eq_ok
  | reset => rfl
  | fill value => exact shows.checkView_eq_ok
  | set index value => exact shows.checkView_eq_ok
  | setWritten index value => exact shows.checkStretch_eq_ok (by omega)
  | dispose => rfl

end PooledBuffers.Writer
