import PooledBuffers.Proofs.Writer.Growth
import PooledBuffers.Writer.Typed

/-!
# Operations that are refused

An operation that is a function of the state has nothing to undo when it is refused. Here the
operations that can be refused are taken apart into steps that take effect one after another: what
was done before a refusal stays done. Each of them refuses before it grows the memory, stores
anything or moves the cursor.

* `Writer.Steps` — computations on a writer and its pool that keep what they did when they fail;
* `Writer.Steps.moveWithin`, `Writer.Steps.write`, `Writer.Steps.read` — operations in steps;
* `Writer.Refuses` — an operation in steps and as a whole, refused under one condition.
-/

namespace PooledBuffers

variable {α β : Type}

/-- A sum of sizes, unless it is no size. -/
def Size.checkedAdd (a b : Nat) : Option Nat :=
  if a + b ≤ top then some (a + b) else none

/-! ## A stretch that is worked on by itself -/

/-- A run written over the front of a stretch, and the stretch put back, is the part of the run that
the stretch has room for. -/
theorem Storage.overwrite_stretch {cells : Array α} {start count : Nat}
    (inside : start + count ≤ cells.size) (run : Array α) :
    overwrite cells start (overwrite (cells.extract start (start + count)) 0 run) =
      overwrite cells start (run.extract 0 count) := by
  have length : (cells.extract start (start + count)).size = count := by
    rw [Array.size_extract]
    omega
  apply Array.ext_getElem?
  intro i
  simp only [getElem?_overwrite, size_overwrite, length, Array.size_extract, Nat.sub_zero]
  by_cases stretch : start ≤ i ∧ i < start + count
  · rw [if_pos (by omega)]
    by_cases written : i - start < run.size
    · rw [if_pos (by omega), if_pos (by omega), Array.getElem?_extract, if_pos (by omega),
        Nat.zero_add]
    · rw [if_neg (by omega), if_neg (by omega), Array.getElem?_extract, if_pos (by omega)]
      congr 1
      omega
  · rw [if_neg (by omega), if_neg (by omega)]

theorem Block.Fits.edit_stretch {block : Block α} (fits : block.Fits) {start count : Nat}
    (inside : start + count ≤ block.length) (run : Array α) :
    (block.edit fun cells => Storage.overwrite cells start
      (Storage.overwrite (block.slice start (start + count)) 0 run)) =
      block.edit fun cells => Storage.overwrite cells start (run.extract 0 count) := by
  obtain ⟨lease, length⟩ := block
  cases lease with
  | none => rfl
  | some lease =>
    have shown : start + count ≤ lease.cells.size := Nat.le_trans inside fits.1
    have stretch : (Block.mk (some lease) length).slice start (start + count) =
        lease.cells.extract start (start + count) := by
      show lease.cells.extract start (min (start + count) length) = _
      rw [Nat.min_eq_left inside]
    rw [stretch]
    exact congrArg (fun cells => Block.mk (some { lease with cells := cells }) length)
      (Storage.overwrite_stretch shown run)

namespace Writer

theorem Backing.Fits.edit_stretch {backing : Backing α} (fits : backing.Fits) {start count : Nat}
    (inside : start + count ≤ backing.length) (run : Array α) :
    (backing.edit fun cells => Storage.overwrite cells start
      (Storage.overwrite (backing.slice start (start + count)) 0 run)) =
      backing.edit fun cells => Storage.overwrite cells start (run.extract 0 count) := by
  cases backing with
  | initial span =>
    cases span with
    | borrowed cells =>
      exact congrArg (fun cells => initial (.borrowed cells)) (Storage.overwrite_stretch inside run)
    | rented block =>
      exact congrArg (fun block => initial (.rented block))
        (Block.Fits.edit_stretch fits inside run)
    | released caller => rfl
  | grown block caller =>
    exact congrArg (grown · caller) (Block.Fits.edit_stretch fits inside run)

/-- Steps on a writer and its pool. A step that fails leaves in place what those before it did. -/
abbrev Steps (α β : Type) := EStateM Error (Writer α × Pool α) β

namespace Steps

/-! ## Steps -/

/-- Puts the cursor somewhere. -/
def place (position : Nat) : Steps α Unit :=
  modify fun state => ({ state.1 with position := position }, state.2)

/-- Applies an edit that keeps the size to the whole memory. -/
def edit (f : Array α → Array α) : Steps α Unit :=
  modify fun state => (state.1.edit f, state.2)

/-- Goes on with what a check succeeds with. -/
def check : Except Error β → Steps α β
  | .ok value => pure value
  | .error e => throw e

/-- The sum of two sizes, which has to be one itself and may not exceed a limit. -/
def sumWithin (name : String) (a b limit : Nat) : Steps α Nat :=
  match (Size.checkedAdd a b).filter (· ≤ limit) with
  | some sum => pure sum
  | none => throw (.outOfRange name (Size.add a b) limit)

section

variable [Element α]

/-- Moves the contents to longer memory. -/
def grow (requested : Nat) : Steps α Unit :=
  modify fun state => state.1.grow requested state.2

def ensureFree (count : Nat) : Steps α Unit := do
  let free := (← get).1.freeCapacity
  if free < count then grow (count - free)

def ensureCapacity (length : Nat) : Steps α Unit := do
  let capacity := (← get).1.capacity
  if capacity < length then grow (length - capacity)

/-! ## Operations in steps -/

def setPosition (position : Nat) : Steps α Unit := do
  let capacity := (← get).1.capacity
  if capacity < position then throw (.outOfRange "position" position capacity)
  else place position

def advance (count : Nat) : Steps α Unit := do
  ensureFree count
  place ((← get).1.position + count)

/-- Makes cells at the cursor available, and steps over them if asked to. -/
def acquire (count : Nat) (movePosition : Bool) : Steps α (Array α) := do
  ensureFree count
  let start := (← get).1.position
  if movePosition then place (start + count)
  return (← get).1.slice start count

def moveWithin (start size target : Nat) (movePosition : Bool) : Steps α Unit := do
  let capacity := (← get).1.capacity
  let _ ← sumWithin "from_start + from_size" start size capacity
  if size = 0 ∨ start = target then ensureCapacity target
  else
    let stop ← sumWithin "to_start + from_size" target size Size.maxCapacity
    ensureCapacity stop
    edit (Storage.moveWithin · start size target)
    if movePosition then place stop

end

section

variable {τ : Type} [Layout τ]

/-- Writes a value at the cursor. The cells are made available and stepped over before the value is
laid out in them, with the checks of its own that this has. -/
def write (order : ByteOrder) (value : τ) : Steps UInt8 Nat := do
  check (Layout.checkOrder τ order)
  let start := (← get).1.position
  let handed ← acquire (Layout.width τ) true
  let (written, cells) := Layout.write order value handed
  edit (Storage.overwrite · start cells)
  check written

/-- Reads a value at the cursor from cells that are there, and steps over them if asked to. -/
def read (order : ByteOrder) (movePosition : Bool) : Steps UInt8 τ := do
  let writer := (← get).1
  check (Layout.checkLength τ writer.freeCapacity)
  let value ← check (Layout.read order (writer.slice writer.position (Layout.width τ)))
  if movePosition then advance (Layout.width τ)
  return value

end

end Steps

theorem Fits.size_slice [Element α] {writer : Writer α} (fits : writer.Fits) {start count : Nat}
    (inside : start + count ≤ writer.capacity) : (writer.slice start count).size = count := by
  rw [fits.slice_eq inside]
  simp

namespace Steps

/-! ## What the steps come to -/

variable {state next : Writer α × Pool α}

theorem bind_ok {γ : Type} {first : Steps α β} {value : β} (done : first state = .ok value next)
    (rest : β → Steps α γ) : (first >>= rest) state = rest value next := by
  show EStateM.bind first rest state = _
  rw [EStateM.bind, done]

theorem bind_error {γ : Type} {first : Steps α β} {e : Error} (failed : first state = .error e next)
    (rest : β → Steps α γ) : (first >>= rest) state = .error e next := by
  show EStateM.bind first rest state = _
  rw [EStateM.bind, failed]

variable {name : String} {a b limit : Nat}

theorem sumWithin_eq_ok (inside : a + b ≤ limit) (held : limit ≤ Size.top)
    (state : Writer α × Pool α) : sumWithin name a b limit state = .ok (a + b) state := by
  have sum : (Size.checkedAdd a b).filter (· ≤ limit) = some (a + b) := by
    rw [Size.checkedAdd, if_pos (Nat.le_trans inside held)]
    simpa using inside
  rw [sumWithin, sum]
  rfl

theorem sumWithin_eq_error (outside : limit < a + b) (state : Writer α × Pool α) :
    sumWithin name a b limit state = .error (.outOfRange name (Size.add a b) limit) state := by
  have none : (Size.checkedAdd a b).filter (· ≤ limit) = none := by
    unfold Size.checkedAdd
    split
    · simpa using outside
    · rfl
  rw [sumWithin, none]
  rfl

variable [Element α]

theorem ensureFree_eq (count : Nat) (state : Writer α × Pool α) :
    ensureFree count state = .ok () (state.1.ensureFree count state.2) := by
  show (if state.1.freeCapacity < count then grow _ else pure ()) state = _
  unfold Writer.ensureFree
  split <;> rfl

theorem ensureCapacity_eq (length : Nat) (state : Writer α × Pool α) :
    ensureCapacity length state = .ok () (state.1.ensureCapacity length state.2) := by
  show (if state.1.capacity < length then grow _ else pure ()) state = _
  unfold Writer.ensureCapacity
  split <;> rfl

/-- What an operation as a whole comes to. One that is refused leaves the state alone. -/
def settled (state : Writer α × Pool α) :
    Except Error (β × Writer α × Pool α) → EStateM.Result Error (Writer α × Pool α) β
  | .ok (value, next) => .ok value next
  | .error e => .error e state

omit [Element α] in
theorem setPosition_eq (position : Nat) (state : Writer α × Pool α) :
    setPosition position state =
      settled state ((state.1.setPosition position).map fun writer => ((), writer, state.2)) := by
  show (if state.1.capacity < position then throw _ else place position) state = _
  unfold Writer.setPosition
  split <;> rfl

theorem advance_eq (count : Nat) (state : Writer α × Pool α) :
    advance count state = .ok () (state.1.advance count state.2) := by
  unfold advance
  rw [bind_ok (ensureFree_eq count state)]
  rfl

theorem acquire_eq (count : Nat) (state : Writer α × Pool α) :
    acquire count true state =
      let made := state.1.ensureFree count state.2
      .ok (made.1.slice made.1.position count)
        ({ made.1 with position := made.1.position + count }, made.2) := by
  unfold acquire
  rw [bind_ok (ensureFree_eq count state)]
  rfl

theorem moveWithin_eq {state : Writer α × Pool α} (held : state.1.capacity ≤ Size.top)
    (start size target : Nat) (move : Bool) :
    moveWithin start size target move state =
      settled state ((state.1.moveWithin start size target move state.2).map fun next =>
        ((), next)) := by
  have top : Size.maxCapacity ≤ Size.top := by decide
  have begins : (get : Steps α _) state = .ok state state := rfl
  unfold moveWithin Writer.moveWithin
  rw [bind_ok begins]
  by_cases outside : state.1.capacity < start + size
  · rw [bind_error (sumWithin_eq_error outside state), if_pos outside]
    rfl
  rw [bind_ok (sumWithin_eq_ok (Nat.not_lt.1 outside) held state), if_neg outside]
  by_cases trivially : size = 0 ∨ start = target
  · rw [if_pos trivially, if_pos trivially]
    exact ensureCapacity_eq target state
  rw [if_neg trivially, if_neg trivially]
  by_cases far : Size.maxCapacity < target + size
  · rw [bind_error (sumWithin_eq_error far state), if_pos far]
    rfl
  rw [bind_ok (sumWithin_eq_ok (Nat.not_lt.1 far) top state), if_neg far,
    bind_ok (ensureCapacity_eq (target + size) state)]
  cases move <;> rfl

/-- A value whose order is admitted is laid out over the front of cells that are enough for it. -/
theorem layout_write_eq {τ : Type} [Layout τ] {order : ByteOrder} {memory : Array UInt8}
    (admitted : Layout.checkOrder τ order = .ok ()) (enough : Layout.width τ ≤ memory.size)
    (value : τ) : Layout.write order value memory =
      (.ok (Layout.width τ), Storage.overwrite memory 0 (Layout.bytes order value)) := by
  have long : Layout.checkLength τ memory.size = .ok () := if_neg (Nat.not_lt.2 enough)
  rw [Layout.write, admitted, long]

/-- Where a value ends within the bound on growth, the cells handed out are as many as it needs, and
the checks made when it is laid out in them let it pass. -/
theorem write_eq {τ : Type} [Layout τ] {state : Writer UInt8 × Pool UInt8} {head : Head UInt8}
    (simulates : Simulates state.1 state.2 head) (order : ByteOrder) (value : τ)
    (small : ¬ (order = .big ∧ maxSwapWidth < Layout.width τ) →
      state.1.position + Layout.width τ ≤ Size.maxCapacity) :
    write order value state = settled state (state.1.write order value state.2) := by
  obtain ⟨-, place, inside, -⟩ := simulates.views
  unfold write Writer.write
  by_cases wide : order = .big ∧ maxSwapWidth < Layout.width τ
  · have refused : Layout.checkOrder τ order =
        .error (.outOfRange "size_of::<T>" (Layout.width τ) maxSwapWidth) := if_pos wide
    rw [refused]
    rfl
  have admitted : Layout.checkOrder τ order = .ok () := if_neg wide
  have passes : (check (.ok ()) : Steps UInt8 Unit) state = .ok () state := rfl
  have begins : (get : Steps UInt8 _) state = .ok state state := rfl
  rw [admitted, bind_ok passes, bind_ok begins, bind_ok (acquire_eq _ state)]
  have free := simulates.shows.ensureFree simulates.cursor_le (place ▸ small wide)
  unfold Writer.acquire
  generalize state.1.ensureFree (Layout.width τ) state.2 = made at free ⊢
  obtain ⟨made, rest⟩ := made
  have stands : made.position = state.1.position := free.position_eq.trans place.symm
  have room : made.position + Layout.width τ ≤ made.capacity := by
    have enough := free.length_le
    simp only at enough
    omega
  have laid := layout_write_eq admitted (Nat.le_of_eq (Fits.size_slice free.fits room).symm) value
  -- The cells handed out are laid over and put back, which is to store the bytes at the cursor.
  have stored := Backing.Fits.edit_stretch free.fits room (Layout.bytes order value)
  simp only [laid]
  rw [← stands]
  show EStateM.Result.ok _ ({ made with
    backing := made.backing.edit _, position := made.position + Layout.width τ }, rest) = _
  exact congrArg (fun backing => EStateM.Result.ok (Layout.width τ)
    ({ made with backing := backing, position := made.position + Layout.width τ }, rest)) stored

/-- The cells that the checks let through are handed to checks that let them through again, and
stepping over them needs no more. -/
theorem read_eq {τ : Type} [Layout τ] {state : Writer UInt8 × Pool UInt8} (fits : state.1.Fits)
    (inside : state.1.position ≤ state.1.capacity) (order : ByteOrder) (move : Bool) :
    (read order move : Steps UInt8 τ) state =
      settled state ((state.1.read order move).map fun (value, writer) =>
        (value, writer, state.2)) := by
  have begins : (get : Steps UInt8 _) state = .ok state state := rfl
  unfold read Writer.read
  rw [bind_ok begins]
  by_cases short : state.1.freeCapacity < Layout.width τ
  · have refused : Layout.checkLength τ state.1.freeCapacity =
        .error (.unexpectedEnd .buffer (Layout.width τ) state.1.freeCapacity) := if_pos short
    rw [refused]
    rfl
  have passes : (check (.ok ()) : Steps UInt8 Unit) state = .ok () state := rfl
  have room : state.1.position + Layout.width τ ≤ state.1.capacity := by
    unfold freeCapacity at short
    omega
  have enough : Layout.checkLength τ state.1.freeCapacity = .ok () := if_neg short
  have again : Layout.checkLength τ (state.1.slice state.1.position (Layout.width τ)).size =
      .ok () := if_neg (Nat.not_lt.2 (Nat.le_of_eq (Fits.size_slice fits room).symm))
  rw [enough, bind_ok passes, Layout.read, again]
  by_cases wide : order = .big ∧ maxSwapWidth < Layout.width τ
  · have refused : Layout.checkOrder τ order =
        .error (.outOfRange "size_of::<T>" (Layout.width τ) maxSwapWidth) := if_pos wide
    rw [refused]
    rfl
  have admitted : Layout.checkOrder τ order = .ok () := if_neg wide
  rw [admitted]
  cases move with
  | false => rfl
  | true =>
    -- There is room, so that the step over the value grows nothing.
    have stepped := advance_eq (Layout.width τ) state
    rw [Writer.advance, ensureFree_of_le room] at stepped
    show (advance (Layout.width τ) >>= fun _ => pure _) state = _
    rw [bind_ok stepped]
    rfl

end Steps

/-! ## States that a writer comes to -/

section

variable [Element α] {writer : Writer α} {pool : Pool α}

theorem capacity_grow_le (writer : Writer α) (requested : Nat) (pool : Pool α) :
    (writer.grow requested pool).1.capacity ≤ Size.maxCapacity := by
  rw [capacity_grow]
  exact Nat.min_le_right _ _

theorem capacity_room_le (held : writer.capacity ≤ Size.maxCapacity) (action : Action α)
    (pool : Pool α) : (writer.room pool action).1.capacity ≤ Size.maxCapacity := by
  cases action <;> simp only [room, Writer.ensureFree, Writer.ensureCapacity] <;> split <;>
    first | exact capacity_grow_le _ _ _ | exact held

theorem capacity_dispose (writer : Writer α) (pool : Pool α) :
    (writer.dispose pool).1.capacity = 0 := by
  have shown := (Backing.fits_dispose writer.backing pool).size_cells
  rw [Backing.cells_dispose] at shown
  exact shown.symm

/-- A growth stops at its bound, and nothing else makes memory longer. -/
theorem capacity_perform_le (held : writer.capacity ≤ Size.maxCapacity) (action : Action α)
    (pool : Pool α) : (writer.perform pool action).2.1.capacity ≤ Size.maxCapacity := by
  have of_single {writer : Writer α} (held : writer.capacity ≤ Size.maxCapacity)
      (action : Action α) (single : action.isRepeated = false) (stays : action.isDispose = false)
      (pool : Pool α) : (writer.perform pool action).2.1.capacity ≤ Size.maxCapacity :=
    (stays_room writer single stays pool).capacity_eq.symm ▸ capacity_room_le held action pool
  by_cases given : action.isDispose = true
  · obtain rfl := Action.eq_dispose given
    exact Nat.le_trans (Nat.le_of_eq (capacity_dispose writer pool)) (Nat.zero_le _)
  by_cases repeated : action.isRepeated = true
  · obtain ⟨run, rfl⟩ := Action.eq_appendEach repeated
    show (writer.appendEach run pool).1.capacity ≤ _
    rw [appendEach_eq_foldl]
    refine List.foldlRecOn
      (motive := fun state : Writer α × Pool α => state.1.capacity ≤ Size.maxCapacity)
      run.toList _ held fun state held value _ => ?_
    exact of_single held (.append value) rfl rfl state.2
  exact of_single held action (Bool.eq_false_iff.2 repeated) (Bool.eq_false_iff.2 given) pool

theorem capacity_run_le (held : writer.capacity ≤ Size.maxCapacity) (pool : Pool α)
    (actions : List (Action α)) : (writer.run pool actions).1.capacity ≤ Size.maxCapacity :=
  List.foldlRecOn
    (motive := fun state : Writer α × Pool α => state.1.capacity ≤ Size.maxCapacity)
    actions _ held fun state held action _ => capacity_perform_le held action state.2

/-- The states of a writer that was made on memory within the bound on growth, whatever was done
with it since, on a pool in whatever state its users left it. -/
def Reached (state : Writer α × Pool α) : Prop :=
  ∃ (start : Start α) (minGrow : Option Nat) (pool : Pool α) (actions : List (Action α)),
    pool.Reachable ∧
    (start.make minGrow pool).1.capacity ≤ Size.maxCapacity ∧
    (start.make minGrow pool).1.Allocatable (start.make minGrow pool).2 actions ∧
    (start.make minGrow pool).1.run (start.make minGrow pool).2 actions = state

theorem Reached.simulates {state : Writer α × Pool α} (reached : Reached state) :
    ∃ head, Simulates state.1 state.2 head := by
  obtain ⟨start, minGrow, pool, actions, reachable, -, allocatable, rfl⟩ := reached
  exact ⟨_, (start.simulates minGrow reachable.sound).run actions allocatable⟩

theorem Reached.capacity_le {state : Writer α × Pool α} (reached : Reached state) :
    state.1.capacity ≤ Size.maxCapacity := by
  obtain ⟨start, minGrow, pool, actions, -, held, -, rfl⟩ := reached
  exact capacity_run_le held _ actions

theorem Allocatable.concat (actions : List (Action α)) :
    ∀ {writer : Writer α} {pool : Pool α} {action : Action α}, writer.Allocatable pool actions →
      (writer.run pool actions).1.reach action ≤ Size.maxCapacity →
      writer.Allocatable pool (actions ++ [action]) := by
  induction actions with
  | nil =>
    intro writer pool action _ small
    exact ⟨small, trivial⟩
  | cons first rest ih =>
    intro writer pool action allocatable small
    exact ⟨allocatable.1, ih allocatable.2 small⟩

/-- What an operation makes of a state that a writer comes to is another one. -/
theorem Reached.perform {state : Writer α × Pool α} (reached : Reached state) {action : Action α}
    (small : state.1.reach action ≤ Size.maxCapacity) :
    Reached (state.1.perform state.2 action).2 := by
  obtain ⟨start, minGrow, pool, actions, reachable, held, allocatable, rfl⟩ := reached
  refine ⟨start, minGrow, pool, actions ++ [action], reachable, held,
    allocatable.concat actions small, ?_⟩
  rw [run_append]
  rfl

end

/-! ## Refusals -/

/-- An operation that fails under one condition and under no other. Its steps come to the same as
the operation as a whole, and when they fail they have changed nothing. -/
structure Refuses (steps : Steps α β) (whole : Except Error (β × Writer α × Pool α))
    (state : Writer α × Pool α) (refused : Prop) : Prop where
  fails_iff : (∃ error, whole = .error error) ↔ refused
  in_steps : steps state = Steps.settled state whole
  unchanged : ∀ error after, steps state = .error error after → after = state

variable {state : Writer α × Pool α}

theorem refuses {steps : Steps α β} {whole : Except Error (β × Writer α × Pool α)} {refused : Prop}
    (in_steps : steps state = Steps.settled state whole)
    (fails_iff : (∃ error, whole = .error error) ↔ refused) :
    Refuses steps whole state refused where
  fails_iff := fails_iff
  in_steps := in_steps
  unchanged error after failed := by
    rw [in_steps] at failed
    cases whole with
    | ok done => cases failed
    | error e =>
      cases failed
      rfl

/-- Where the operation is refused its steps fail, in the state that they began in. -/
theorem Refuses.error {steps : Steps α β} {whole : Except Error (β × Writer α × Pool α)}
    {refused : Prop} (refuses : Refuses steps whole state refused) (holds : refused) :
    ∃ error, steps state = .error error state := by
  obtain ⟨error, failed⟩ := refuses.fails_iff.2 holds
  refine ⟨error, ?_⟩
  rw [refuses.in_steps, failed]
  rfl

/-- The operations that put the cursor somewhere, and those that move cells. -/
structure RefusesCleanly [Element α] (state : Writer α × Pool α) : Prop where
  setPosition : ∀ position,
    Refuses (Steps.setPosition position)
      ((state.1.setPosition position).map fun writer => ((), writer, state.2)) state
      (state.1.capacity < position)
  moveWithin : ∀ start size target move,
    Refuses (Steps.moveWithin start size target move)
      ((state.1.moveWithin start size target move state.2).map fun next => ((), next)) state
      (state.1.capacity < start + size ∨
        (size ≠ 0 ∧ start ≠ target) ∧ Size.maxCapacity < target + size)

/-- The operations on values of one type. A value that is not refused has to end within the bound on
growth. -/
structure RefusesValuesCleanly (state : Writer UInt8 × Pool UInt8) (τ : Type) [Layout τ] :
    Prop where
  write_fails_iff : ∀ order (value : τ),
    (∃ error, state.1.write order value state.2 = .error error) ↔
      order = .big ∧ 256 < Layout.width τ
  write : ∀ order (value : τ),
    (¬ (order = .big ∧ 256 < Layout.width τ) →
      state.1.position + Layout.width τ ≤ Size.maxCapacity) →
    Refuses (Steps.write order value) (state.1.write order value state.2) state
      (order = .big ∧ 256 < Layout.width τ)
  read : ∀ order move,
    Refuses (Steps.read order move : Steps UInt8 τ)
      ((state.1.read order move).map fun (value, writer) => (value, writer, state.2)) state
      (state.1.capacity < state.1.position + Layout.width τ ∨
        order = .big ∧ 256 < Layout.width τ)
  /-- A value that is read leaves all as it was, but for the cursor, which steps over the value if
  it is asked to. -/
  reads_in_place : ∀ order move (value : τ) after, Steps.read order move state = .ok value after →
    after = ({ state.1 with
      position := if move then state.1.position + Layout.width τ else state.1.position }, state.2)

theorem ok_ne_error (value : β) : ¬ ∃ error : Error, Except.ok value = .error error :=
  fun ⟨_, same⟩ => nomatch same

theorem map_fails_iff {γ : Type} {outcome : Except Error β} (f : β → γ) :
    (∃ error, outcome.map f = .error error) ↔ ∃ error, outcome = .error error := by
  cases outcome with
  | ok value => exact iff_of_false (ok_ne_error _) (ok_ne_error _)
  | error e => exact iff_of_true ⟨e, rfl⟩ ⟨e, rfl⟩

theorem setPosition_fails_iff {writer : Writer α} {position : Nat} :
    (∃ error, writer.setPosition position = .error error) ↔ writer.capacity < position := by
  unfold setPosition
  split
  · exact iff_of_true ⟨_, rfl⟩ ‹_›
  · exact iff_of_false (ok_ne_error _) ‹_›

theorem moveWithin_fails_iff [Element α] {writer : Writer α} {pool : Pool α}
    {start size target : Nat} {move : Bool} :
    (∃ error, writer.moveWithin start size target move pool = .error error) ↔
      writer.capacity < start + size ∨
        (size ≠ 0 ∧ start ≠ target) ∧ Size.maxCapacity < target + size := by
  unfold Writer.moveWithin
  by_cases outside : writer.capacity < start + size
  · rw [if_pos outside]
    exact iff_of_true ⟨_, rfl⟩ (.inl outside)
  rw [if_neg outside, or_iff_right outside]
  by_cases trivially : size = 0 ∨ start = target
  · rw [if_pos trivially]
    exact iff_of_false (ok_ne_error _) (by omega)
  rw [if_neg trivially, and_iff_right (not_or.1 trivially)]
  split
  · exact iff_of_true ⟨_, rfl⟩ ‹_›
  · exact iff_of_false (ok_ne_error _) ‹_›

section

variable {τ : Type} [Layout τ] {writer : Writer UInt8} {order : ByteOrder}

variable (τ order) in
theorem checkOrder_fails_iff :
    (∃ error, Layout.checkOrder τ order = .error error) ↔
      order = .big ∧ 256 < Layout.width τ := by
  unfold Layout.checkOrder
  split
  · exact iff_of_true ⟨_, rfl⟩ ‹_›
  · exact iff_of_false (ok_ne_error _) ‹_›

theorem write_fails_iff {value : τ} {pool : Pool UInt8} :
    (∃ error, writer.write order value pool = .error error) ↔
      order = .big ∧ 256 < Layout.width τ := by
  rw [← checkOrder_fails_iff τ order]
  -- Behind the check of the order there is nothing that fails.
  unfold Writer.write
  cases Layout.checkOrder τ order with
  | ok _ => exact iff_of_false (ok_ne_error _) (ok_ne_error _)
  | error e => exact iff_of_true ⟨e, rfl⟩ ⟨e, rfl⟩

theorem read_fails_iff {move : Bool} (inside : writer.position ≤ writer.capacity) :
    (∃ error, (writer.read order move : Except Error (τ × Writer UInt8)) = .error error) ↔
      writer.capacity < writer.position + Layout.width τ ∨
        order = .big ∧ 256 < Layout.width τ := by
  have short_iff : writer.freeCapacity < Layout.width τ ↔
      writer.capacity < writer.position + Layout.width τ := by
    unfold freeCapacity
    omega
  rw [← short_iff, ← checkOrder_fails_iff τ order]
  unfold Writer.read Layout.checkLength
  by_cases short : writer.freeCapacity < Layout.width τ
  · rw [if_pos short]
    exact iff_of_true ⟨_, rfl⟩ (.inl short)
  rw [if_neg short, or_iff_right short]
  cases Layout.checkOrder τ order with
  | ok _ => exact iff_of_false (ok_ne_error _) (ok_ne_error _)
  | error e => exact iff_of_true ⟨e, rfl⟩ ⟨e, rfl⟩

/-- A value that is written is a run of bytes that is acquired. -/
theorem write_performs {value : τ} {count : Nat} {pool : Pool UInt8}
    {next : Writer UInt8 × Pool UInt8} (done : writer.write order value pool = .ok (count, next)) :
    next = (writer.perform pool
      (.acquire (Layout.width τ) true (Layout.bytes order value))).2 := by
  unfold Writer.write at done
  generalize Layout.checkOrder τ order = admitted at done
  cases admitted with
  | error e => cases done
  | ok _ =>
    cases done
    rfl

theorem read_moves_cursor {move : Bool} {value : τ} {next : Writer UInt8}
    (done : writer.read order move = .ok (value, next)) :
    next = { writer with
      position := if move then writer.position + Layout.width τ else writer.position } := by
  unfold Writer.read at done
  generalize Layout.checkLength τ writer.freeCapacity = enough at done
  generalize Layout.checkOrder τ order = admitted at done
  cases enough with
  | error e => cases done
  | ok _ =>
    cases admitted with
    | error e => cases done
    | ok _ =>
      cases done
      cases move <;> rfl

end

/-- Writing a value leads to a state that other operations lead to. -/
theorem Reached.write {state next : Writer UInt8 × Pool UInt8} (reached : Reached state)
    {τ : Type} [Layout τ] {order : ByteOrder} {value : τ} {count : Nat}
    (small : state.1.position + Layout.width τ ≤ Size.maxCapacity)
    (done : state.1.write order value state.2 = .ok (count, next)) : Reached next := by
  rw [write_performs done]
  exact reached.perform small

/-- Reading a value leads to a state that other operations lead to. -/
theorem Reached.read {state : Writer UInt8 × Pool UInt8} (reached : Reached state)
    {τ : Type} [Layout τ] {order : ByteOrder} {move : Bool} {value : τ} {next : Writer UInt8}
    (done : state.1.read order move = .ok (value, next)) : Reached (next, state.2) := by
  have room : state.1.position + Layout.width τ ≤ state.1.capacity := by
    obtain ⟨head, simulates⟩ := reached.simulates
    refine Nat.not_lt.1 fun short => ?_
    obtain ⟨error, failed⟩ := (read_fails_iff simulates.views.2.2.1).2 (.inl short)
    rw [failed] at done
    cases done
  rw [read_moves_cursor done]
  cases move with
  | false => exact reached
  | true =>
    have stepped : Reached (state.1.perform state.2 (.advance (Layout.width τ))).2 :=
      reached.perform (Nat.le_trans room reached.capacity_le)
    simp only [Writer.perform, Writer.advance, ensureFree_of_le room] at stepped
    exact stepped

theorem Reached.refusesCleanly [Element α] {state : Writer α × Pool α} (reached : Reached state) :
    RefusesCleanly state where
  setPosition position :=
    refuses (Steps.setPosition_eq position state) ((map_fails_iff _).trans setPosition_fails_iff)
  moveWithin start size target move := by
    have held : state.1.capacity ≤ Size.top := Nat.le_trans reached.capacity_le (by decide)
    exact refuses (Steps.moveWithin_eq held start size target move)
      ((map_fails_iff _).trans moveWithin_fails_iff)

theorem Reached.refusesValuesCleanly {state : Writer UInt8 × Pool UInt8} (reached : Reached state)
    (τ : Type) [Layout τ] : RefusesValuesCleanly state τ := by
  obtain ⟨head, simulates⟩ := reached.simulates
  obtain ⟨-, -, inside, -⟩ := simulates.views
  refine ⟨fun order value => write_fails_iff, fun order value small => ?_, fun order move => ?_,
    fun order move value after done => ?_⟩
  · exact refuses (Steps.write_eq simulates order value small) write_fails_iff
  · exact refuses (Steps.read_eq simulates.shows.fits inside order move)
      ((map_fails_iff _).trans (read_fails_iff inside))
  · rw [Steps.read_eq simulates.shows.fits inside] at done
    cases read : (state.1.read order move : Except Error (τ × Writer UInt8)) with
    | error e =>
      rw [read] at done
      cases done
    | ok result =>
      obtain ⟨value, next⟩ := result
      rw [read] at done
      cases done
      rw [← read_moves_cursor read]

/-- A writer that refuses an operation is as it was, with its pool, in every state that it comes to:
on the memory that it began on or on rented memory, given back or not, with the cursor anywhere. The
cursor is put anywhere up to the capacity; cells are moved if they lie within the capacity, and
to a place within the bound on growth, unless nothing is moved or nothing changes its place; values
are written in every order that they have, and are read from memory that is there already. -/
theorem refused_changes_nothing [Element α] {state : Writer α × Pool α} (reached : Reached state)
    {bytes : Writer UInt8 × Pool UInt8} (held : Reached bytes) (τ : Type) [Layout τ] :
    RefusesCleanly state ∧ RefusesValuesCleanly bytes τ :=
  ⟨reached.refusesCleanly, held.refusesValuesCleanly τ⟩

/-- A move of which the end wraps around, and a number read with one byte left. -/
theorem refused_changes_nothing_at_the_end :
    let state := ((Start.memory #[(8 : UInt8), 9]).make none Pool.standard)
    let written := state.1.run state.2 [.append 7]
    Reached written ∧
      (∃ error, Steps.moveWithin 1 Size.top 0 true written = .error error written) ∧
      ∃ error, (Steps.read .little true : Steps UInt8 UInt16) written = .error error written := by
  intro state written
  have reached : Reached written :=
    ⟨.memory #[8, 9], none, Pool.standard, [.append 7], Pool.reachable_standard, by decide,
      by decide, rfl⟩
  obtain ⟨moves, values⟩ := refused_changes_nothing reached reached UInt16
  exact ⟨reached, (moves.moveWithin 1 Size.top 0 true).error (.inl (by decide)),
    (values.read .little true).error (.inl (by decide))⟩

end Writer

end PooledBuffers
