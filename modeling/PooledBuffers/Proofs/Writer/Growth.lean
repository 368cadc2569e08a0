import PooledBuffers.Proofs.Machine
import PooledBuffers.Proofs.Pool.Requests
import PooledBuffers.Proofs.Writer.Lent
import PooledBuffers.Proofs.Writer.Refinement

/-!
# How a writer grows

A writer grows in the operations that reach behind its memory and in no others. But for the first
growth, for which a least length may be set, the memory gets twice as long at least, and no longer
than twice as far as the operation reaches. So the memory of a writer is at any time about as long
as the farthest place that it reached, and there were few growths.

* `Writer.farEnd`, `Writer.farthest` — how far an operation reaches, and how far a run does;
* `Writer.growths` — the number of growths in a run;
* `Writer.grownCapacity_le`, `Writer.two_mul_le_grownCapacity` — how long the memory gets;
* `Writer.Tracked` — what holds between the operations of a run, with `Writer.Tracked.perform` for
  one operation and `Writer.Tracked.run` for many;
* `Writer.grows_geometrically` — from every start, after every run of operations.
-/

namespace PooledBuffers

variable {α : Type} [Element α]

/-! ## What goes back is not counted as rented -/

theorem Block.Fits.rented_dispose {block : Block α} (fits : block.Fits) (pool : Pool α) :
    (block.dispose pool).2.counters.rented = pool.counters.rented := by
  obtain ⟨lease, length⟩ := block
  cases lease with
  | none => rfl
  | some lease => exact (Pool.giveBack_counts pool fits.2).1

theorem Span.Fits.rented_dispose {span : Span α} (fits : span.Fits) (pool : Pool α) :
    (span.dispose pool).2.counters.rented = pool.counters.rented := by
  cases span with
  | borrowed cells => rfl
  | rented block => exact Block.Fits.rented_dispose fits pool
  | released caller => rfl

/-- A block of some cells is one array, whatever array the pool finds for it. -/
theorem Block.rented_rent {pool : Pool α} (sound : pool.Sound) {length : Nat}
    (some_cells : 0 < length) (cleared : Bool) :
    (Block.rent pool length cleared).2.counters.rented = pool.counters.rented + 1 := by
  have enough := Pool.le_size_rent sound length
  have counted : (pool.rent length).1.count = 1 :=
    Lease.count_of_pos (Nat.lt_of_lt_of_le some_cells enough)
  have asked : pool.rent length = ((pool.rent length).1, (pool.rent length).2) := rfl
  have counts := (Pool.rent_counts sound asked).1
  rwa [counted] at counts

namespace Writer

variable {writer : Writer α} {pool : Pool α}

theorem Backing.Fits.rented_dispose {backing : Backing α} (fits : backing.Fits) (pool : Pool α) :
    (backing.dispose pool).2.counters.rented = pool.counters.rented := by
  cases backing with
  | initial span => exact Span.Fits.rented_dispose fits pool
  | grown block caller => exact Block.Fits.rented_dispose fits pool

/-! ## One growth -/

omit [Element α] in
/-- The memory gets no longer than the least length set for the first growth, or twice as long as
was asked for. -/
theorem grownCapacity_le (writer : Writer α) (requested : Nat) :
    writer.grownCapacity requested ≤
      max (writer.initialLength + writer.minGrow.getD 0)
        (max fallbackGrowth (2 * (writer.capacity + requested))) := by
  have sum (a b : Nat) : Size.add a b ≤ a + b := Nat.min_le_left _ _
  have exact := sum writer.capacity requested
  have doubled : Size.add writer.capacity
      (if 0 < writer.capacity then max requested writer.capacity
        else max requested fallbackGrowth) ≤
      max fallbackGrowth (2 * (writer.capacity + requested)) := by
    refine Nat.le_trans (sum _ _) ?_
    split <;> omega
  unfold grownCapacity
  cases writer.minGrow with
  | none =>
    simp only
    omega
  | some least =>
    have set := sum writer.initialLength least
    simp only [Option.getD_some]
    split <;> omega

omit [Element α] in
/-- A growth that is not the first doubles the memory. -/
theorem two_mul_le_grownCapacity (grown : writer.isGrown = true) (some_cells : 0 < writer.capacity)
    (small : 2 * writer.capacity ≤ Size.maxCapacity) (requested : Nat) :
    2 * writer.capacity ≤ writer.grownCapacity requested := by
  have top : Size.maxCapacity ≤ Size.top := by decide
  have doubled : 2 * writer.capacity ≤
      Size.add writer.capacity (max requested writer.capacity) := by
    unfold Size.add
    omega
  unfold grownCapacity
  cases writer.minGrow with
  | none =>
    simp only [some_cells, if_true]
    omega
  | some least =>
    simp only [grown, some_cells, if_true, Bool.not_true, Bool.false_and, Bool.false_eq_true,
      if_false]
    omega

@[simp] theorem capacity_grow (writer : Writer α) (requested : Nat) (pool : Pool α) :
    (writer.grow requested pool).1.capacity = writer.grownCapacity requested := by
  rw [grow_eq]
  exact Block.length_edit _ _

/-- A growth takes one array from the pool. -/
theorem rented_grow (fits : writer.Fits) (sound : pool.Sound) {requested : Nat}
    (longer : 0 < writer.grownCapacity requested) :
    (writer.grow requested pool).2.counters.rented = pool.counters.rented + 1 := by
  rw [grow_eq]
  exact (Backing.Fits.rented_dispose fits _).trans (Block.rented_rent sound longer false)

/-! ## Behind the growth -/

/-- Once there is room, an operation works in the memory and puts the cursor somewhere. -/
theorem perform_room (writer : Writer α) {action : Action α}
    (single : action.isRepeated = false) (stays : action.isDispose = false) (pool : Pool α) :
    ∃ backing position, (writer.perform pool action).2 =
      ({ (writer.room pool action).1 with backing := backing, position := position },
        (writer.room pool action).2) := by
  -- Room for nothing is there already.
  have nothing : writer.ensureCapacity 0 pool = (writer, pool) :=
    ensureCapacity_of_le (Nat.zero_le _)
  cases action with
  | append value => exact ⟨_, _, rfl⟩
  | appendRun run => exact ⟨_, _, rfl⟩
  | appendEach run => cases single
  | acquire count move content => exact ⟨_, _, rfl⟩
  | advance count => exact ⟨_, _, rfl⟩
  | advanceTo target => exact ⟨_, _, rfl⟩
  | moveWithin start size target move =>
    show ∃ backing position, _ =
      ({ (writer.ensureCapacity (writer.moveEnd start size target) pool).1 with
          backing := backing, position := position },
        (writer.ensureCapacity (writer.moveEnd start size target) pool).2)
    unfold moveEnd
    simp only [perform, Writer.moveWithin]
    by_cases outside : writer.capacity < start + size
    · simp only [if_pos outside, nothing]
      exact ⟨_, _, rfl⟩
    by_cases trivially : size = 0 ∨ start = target
    · simp only [if_neg outside, if_pos trivially]
      exact ⟨_, _, rfl⟩
    by_cases far : Size.maxCapacity < target + size
    · simp only [if_neg outside, if_neg trivially, if_pos far, nothing]
      exact ⟨_, _, rfl⟩
    · simp only [if_neg outside, if_neg trivially, if_neg far]
      exact ⟨_, _, rfl⟩
  | setPosition position =>
    simp only [room, needed, reach, nothing, perform, setPosition]
    by_cases refused : writer.capacity < position
    · simp only [if_pos refused]
      exact ⟨_, _, rfl⟩
    · simp only [if_neg refused]
      exact ⟨_, _, rfl⟩
  | reset =>
    simp only [room, needed, reach, nothing]
    exact ⟨_, _, rfl⟩
  | fill value =>
    simp only [room, needed, reach, nothing]
    exact ⟨_, _, rfl⟩
  | set index value =>
    simp only [room, needed, reach, nothing, perform, set?]
    by_cases within : index < writer.capacity
    · simp only [if_pos within]
      exact ⟨_, _, rfl⟩
    · simp only [if_neg within]
      exact ⟨_, _, rfl⟩
  | setWritten index value =>
    simp only [room, needed, reach, nothing, perform, setWritten?, set?]
    by_cases written : index < writer.position
    · by_cases within : index < writer.capacity
      · simp only [if_pos written, if_pos within]
        exact ⟨_, _, rfl⟩
      · simp only [if_pos written, if_neg within]
        exact ⟨_, _, rfl⟩
    · simp only [if_neg written]
      exact ⟨_, _, rfl⟩
  | dispose => cases stays

/-- How a writer grows is set when it is made. -/
theorem settings_perform (writer : Writer α) {action : Action α}
    (single : action.isRepeated = false) (stays : action.isDispose = false) (pool : Pool α) :
    (writer.perform pool action).2.1.minGrow = writer.minGrow ∧
      (writer.perform pool action).2.1.initialLength = writer.initialLength := by
  have room : (writer.room pool action).1.minGrow = writer.minGrow ∧
      (writer.room pool action).1.initialLength = writer.initialLength := by
    cases action <;> simp only [Writer.room, ensureFree, ensureCapacity] <;> split <;>
      exact ⟨rfl, rfl⟩
  obtain ⟨backing, position, done⟩ := perform_room writer single stays pool
  rw [done]
  exact room

/-! ## How far an operation reaches -/

/-- The operations that an operation is made of: elements one by one are added one by one. -/
def Action.singles : Action α → List (Action α)
  | .appendEach run => run.toList.map .append
  | action => [action]

/-- How far an operation reaches: behind the cells at the cursor that it makes available, to the
place that it puts the cursor at, or behind the cells that it moves something to. A move that is
refused reaches nowhere, and what works in the memory that is there does not either. -/
def farEnd (writer : Writer α) (pool : Pool α) : Action α → Nat
  | .moveWithin start size target move =>
    match writer.moveWithin start size target move pool with
    | .ok _ => target + size
    | .error _ => 0
  | action => writer.reach action

/-- The farthest end that an operation of a run reaches. -/
def farthest (writer : Writer α) (pool : Pool α) : List (Action α) → Nat
  | [] => 0
  | action :: rest =>
    max (writer.farEnd pool action)
      ((writer.perform pool action).2.1.farthest (writer.perform pool action).2.2 rest)

/-- The number of operations of a run in which the memory gets longer. -/
def growths (writer : Writer α) (pool : Pool α) : List (Action α) → Nat
  | [] => 0
  | action :: rest =>
    (if writer.capacity < (writer.perform pool action).2.1.capacity then 1 else 0) +
      (writer.perform pool action).2.1.growths (writer.perform pool action).2.2 rest

/-- A move onto itself reaches the end of the cells moved and needs none behind their start, but
both lie in memory. All other operations need the cells up to where they reach. -/
theorem farEnd_cases (writer : Writer α) (pool : Pool α) (action : Action α) :
    writer.farEnd pool action = writer.needed action ∨
      writer.farEnd pool action ≤ writer.capacity ∧ ¬ writer.Outgrows action := by
  cases action with
  | moveWithin start size target move =>
    simp only [farEnd, Outgrows, needed, moveEnd, Writer.moveWithin]
    by_cases outside : writer.capacity < start + size
    · simp only [if_pos outside, true_or]
    by_cases trivially : size = 0 ∨ start = target
    · simp only [if_neg outside, if_pos trivially]
      omega
    by_cases far : Size.maxCapacity < target + size
    · simp only [if_neg outside, if_neg trivially, if_pos far, true_or]
    · simp only [if_neg outside, if_neg trivially, if_neg far, true_or]
  | _ => exact .inl rfl

/-- An operation has too little memory exactly if it reaches behind the memory. -/
theorem outgrows_iff (writer : Writer α) (pool : Pool α) (action : Action α) :
    writer.Outgrows action ↔ writer.capacity < writer.farEnd pool action := by
  rcases writer.farEnd_cases pool action with same | ⟨inside, room⟩
  · rw [same]
    exact Iff.rfl
  · exact iff_of_false room (Nat.not_lt.2 inside)

theorem reach_le_farEnd (writer : Writer α) (pool : Pool α) (action : Action α) :
    writer.reach action ≤ writer.farEnd pool action := by
  cases action with
  | moveWithin start size target move =>
    simp only [reach, farEnd, Writer.moveWithin]
    split
    · rename_i moved
      rw [if_neg (Nat.not_lt.2 moved.1), if_pos moved.2]
      exact Nat.le_add_right target size
    · exact Nat.zero_le _
  | _ => exact Nat.le_refl _

/-! ## One operation -/

/-- Everything that an operation can do to the memory: keep it, if it is long enough; or grow it,
by as much as is missing at least, with one array from the pool. -/
theorem growth_cases {head : Head α} (simulates : Simulates writer pool head) {action : Action α}
    (single : action.isRepeated = false) (stays : action.isDispose = false)
    (small : writer.farEnd pool action ≤ Size.maxCapacity) :
    (writer.farEnd pool action ≤ writer.capacity ∧
      (writer.perform pool action).2.1.capacity = writer.capacity ∧
      (writer.perform pool action).2.1.isGrown = writer.isGrown ∧
      (writer.perform pool action).2.2 = pool) ∨
    writer.capacity < writer.farEnd pool action ∧
      (writer.perform pool action).2.1.capacity =
        writer.grownCapacity (writer.farEnd pool action - writer.capacity) ∧
      writer.farEnd pool action ≤ (writer.perform pool action).2.1.capacity ∧
      (writer.perform pool action).2.1.isGrown = true ∧
      (writer.perform pool action).2.2.counters.rented = pool.counters.rented + 1 := by
  obtain ⟨-, -, inside, -⟩ := simulates.views
  -- Behind the room neither the length changes nor the pool, so that it is all in making room.
  have kept := stays_room writer single stays pool
  obtain ⟨backing, position, done⟩ := perform_room writer single stays pool
  have same : (writer.perform pool action).2.2 = (writer.room pool action).2 := by rw [done]
  rw [kept.capacity_eq, kept.isGrown_eq, same, room_eq inside]
  by_cases short : writer.capacity < writer.farEnd pool action
  · have exact : writer.needed action = writer.farEnd pool action := by
      rcases writer.farEnd_cases pool action with same | ⟨inside, -⟩
      · exact same.symm
      · exact absurd short (Nat.not_lt.2 inside)
    have grown : writer.ensureCapacity (writer.farEnd pool action) pool =
        writer.grow (writer.farEnd pool action - writer.capacity) pool := if_pos short
    have sum : writer.capacity + (writer.farEnd pool action - writer.capacity) =
        writer.farEnd pool action := by omega
    have enough := add_le_grownCapacity (sum.symm ▸ small)
    rw [sum] at enough
    have longer := Nat.lt_of_lt_of_le (Nat.zero_lt_of_lt short) enough
    rw [exact, grown, capacity_grow]
    exact .inr ⟨short, rfl, enough, rfl,
      rented_grow simulates.shows.fits simulates.shows.sound longer⟩
  · have room := mt (outgrows_iff writer pool action).1 short
    rw [ensureCapacity_of_le (Nat.not_lt.1 room)]
    exact .inl ⟨Nat.not_lt.1 short, rfl, rfl, rfl⟩

/-- A writer with the operations of writers. -/
def machine : Machine (Writer α × Pool α) (Action α) (Reply α) :=
  fun state action => state.1.perform state.2 action

/-- The memory gets no shorter in an operation. It gets longer if the operation reaches behind it,
and then one array is rented. -/
structure GrowsAtNeed (state : Writer α × Pool α) (action : Action α) : Prop where
  keeps : state.1.capacity ≤ (machine state action).2.1.capacity
  grows_iff : state.1.capacity < (machine state action).2.1.capacity ↔
    state.1.capacity < state.1.farEnd state.2 action
  rents : (machine state action).2.2.counters.rented = state.2.counters.rented +
    if state.1.capacity < (machine state action).2.1.capacity then 1 else 0

/-- Between the operations of a run that began in one state and is in another: the memory covers
the farthest end reached so far and is not much longer, and it doubled from one growth to the
next. -/
structure Tracked (first state : Writer α × Pool α) (far times : Nat) : Prop where
  simulates : ∃ head, Simulates state.1 state.2 head
  minGrow_eq : state.1.minGrow = first.1.minGrow
  initialLength_eq : state.1.initialLength = first.1.capacity
  keeps : first.1.capacity ≤ state.1.capacity
  covers : far ≤ state.1.capacity
  bounded : state.1.capacity ≤
    max (first.1.capacity + first.1.minGrow.getD 0) (max fallbackGrowth (2 * far))
  grown : 0 < times → state.1.isGrown = true
  doubled : 0 < times → Nat.pow 2 (times - 1) ≤ state.1.capacity
  rented : state.2.counters.rented = first.2.counters.rented + times

variable {first state : Writer α × Pool α} {far times : Nat}

/-- One more growth doubles once more, but for the first, behind which there is one cell at
least. -/
theorem two_pow_le_of_doubled {before after : Nat}
    (doubled : 0 < times → Nat.pow 2 (times - 1) ≤ before) (longer : before < after)
    (twice : 0 < times → 2 * before ≤ after) : Nat.pow 2 times ≤ after := by
  cases times with
  | zero => exact Nat.succ_le_of_lt (Nat.zero_lt_of_lt longer)
  | succ times =>
    have before_ge : Nat.pow 2 times ≤ before := doubled (Nat.succ_pos _)
    calc Nat.pow 2 (times + 1) = 2 * Nat.pow 2 times := Nat.mul_comm _ _
      _ ≤ 2 * before := Nat.mul_le_mul_left 2 before_ge
      _ ≤ after := twice (Nat.succ_pos _)

/-- One operation that reaches no farther than the bound on growth. -/
theorem growsAtNeed {head : Head α} (simulates : Simulates state.1 state.2 head)
    {action : Action α} (single : action.isRepeated = false) (stays : action.isDispose = false)
    (small : state.1.farEnd state.2 action ≤ Size.maxCapacity) : GrowsAtNeed state action := by
  rcases growth_cases simulates single stays small with
    ⟨room, same, -, pool⟩ | ⟨short, -, enough, -, rented⟩
  · have keeps : ¬ state.1.capacity < (machine state action).2.1.capacity :=
      Nat.not_lt.2 (Nat.le_of_eq same)
    refine ⟨Nat.le_of_eq same.symm, iff_of_false keeps (Nat.not_lt.2 room), ?_⟩
    rw [if_neg keeps]
    exact congrArg (fun pool => pool.counters.rented) pool
  · have grows : state.1.capacity < (machine state action).2.1.capacity :=
      Nat.lt_of_lt_of_le short enough
    refine ⟨Nat.le_of_lt grows, iff_of_true grows short, ?_⟩
    rw [if_pos grows]
    exact rented

/-- An operation that reaches no farther than half of the bound on growth is one growth or none. -/
theorem Tracked.perform (tracked : Tracked first state far times) {action : Action α}
    (single : action.isRepeated = false) (stays : action.isDispose = false)
    (small : state.1.farEnd state.2 action ≤ Size.maxCapacity / 2) :
    Tracked first (machine state action).2 (max far (state.1.farEnd state.2 action))
      (times + if state.1.capacity < (machine state action).2.1.capacity then 1 else 0) := by
  obtain ⟨head, simulates⟩ := tracked.simulates
  have reaches := reach_le_farEnd state.1 state.2 action
  have next := simulates.perform action (by omega)
  have settings := settings_perform state.1 single stays state.2
  have cases := growth_cases simulates single stays (by omega)
  have covers := tracked.covers
  have bounded := tracked.bounded
  have keeps := tracked.keeps
  show Tracked first (state.1.perform state.2 action).2 _
    (times + if state.1.capacity < (state.1.perform state.2 action).2.1.capacity then 1 else 0)
  generalize (state.1.perform state.2 action).2 = after at next settings cases ⊢
  obtain ⟨minGrow, initialLength⟩ := settings
  rcases cases with ⟨room, same, grown, pool⟩ | ⟨short, length, enough, grown, rented⟩
  · rw [if_neg (by omega), Nat.add_zero]
    exact
      { simulates := ⟨_, next⟩
        minGrow_eq := minGrow.trans tracked.minGrow_eq
        initialLength_eq := initialLength.trans tracked.initialLength_eq
        keeps := by omega
        covers := by omega
        bounded := by omega
        grown := fun some_growth => grown.trans (tracked.grown some_growth)
        doubled := fun some_growth => same.symm ▸ tracked.doubled some_growth
        rented := pool.symm ▸ tracked.rented }
  · have upper := state.1.grownCapacity_le (state.1.farEnd state.2 action - state.1.capacity)
    rw [tracked.initialLength_eq, tracked.minGrow_eq, ← length] at upper
    -- The first growth may add less than there was, and every later one doubles what there is.
    have twice : 0 < times → 2 * state.1.capacity ≤ after.1.capacity := by
      intro some_growth
      have doubled := tracked.doubled some_growth
      have some_cells := Nat.lt_of_lt_of_le (Nat.two_pow_pos (times - 1)) doubled
      rw [length]
      exact two_mul_le_grownCapacity (tracked.grown some_growth) some_cells (by omega) _
    have powers := two_pow_le_of_doubled tracked.doubled (by omega) twice
    rw [if_pos (by omega)]
    exact
      { simulates := ⟨_, next⟩
        minGrow_eq := minGrow.trans tracked.minGrow_eq
        initialLength_eq := initialLength.trans tracked.initialLength_eq
        keeps := by omega
        covers := by omega
        bounded := by omega
        grown := fun _ => grown
        doubled := fun _ => powers
        rented := by
          rw [rented, tracked.rented]
          rfl }

/-! ## Runs of operations -/

omit [Element α] in
/-- What an operation is made of is not made of others, and gives the memory back only if the
operation does. -/
theorem Action.single_of_mem {action single : Action α} (stays : action.isDispose = false)
    (part : single ∈ action.singles) : single.isRepeated = false ∧ single.isDispose = false := by
  cases action with
  | appendEach run =>
    obtain ⟨value, -, rfl⟩ := List.mem_map.1 part
    exact ⟨rfl, rfl⟩
  | dispose => cases stays
  | _ =>
    obtain rfl := List.mem_singleton.1 part
    exact ⟨rfl, rfl⟩

theorem run_append (writer : Writer α) (pool : Pool α) (before after : List (Action α)) :
    writer.run pool (before ++ after) =
      (writer.run pool before).1.run (writer.run pool before).2 after :=
  List.foldl_append

theorem run_singles (action : Action α) (writer : Writer α) (pool : Pool α) :
    writer.run pool action.singles = (writer.perform pool action).2 := by
  cases action with
  | appendEach run =>
    show (run.toList.map Action.append).foldl _ (writer, pool) = writer.appendEach run pool
    rw [List.foldl_map, appendEach_eq_foldl]
    rfl
  | _ => rfl

/-- A run is one of the operations that its operations are made of. -/
theorem run_flatMap_singles (actions : List (Action α)) (writer : Writer α) (pool : Pool α) :
    writer.run pool (actions.flatMap Action.singles) = writer.run pool actions := by
  induction actions generalizing writer pool with
  | nil => rfl
  | cons action rest ih => rw [List.flatMap_cons, run_append, run_singles, run_cons, ih]

theorem Tracked.run (actions : List (Action α)) :
    ∀ {state : Writer α × Pool α} {far times : Nat}, Tracked first state far times →
      (∀ action ∈ actions, action.isRepeated = false ∧ action.isDispose = false) →
      state.1.farthest state.2 actions ≤ Size.maxCapacity / 2 →
      machine.Along GrowsAtNeed state actions ∧
        Tracked first (state.1.run state.2 actions) (max far (state.1.farthest state.2 actions))
          (times + state.1.growths state.2 actions) := by
  induction actions with
  | nil =>
    intro state far times tracked _ _
    refine ⟨trivial, ?_⟩
    show Tracked first state (max far 0) times
    rwa [Nat.max_zero]
  | cons action rest ih =>
    intro state far times tracked kept small
    obtain ⟨single, stays⟩ := kept action List.mem_cons_self
    have near : state.1.farEnd state.2 action ≤ Size.maxCapacity / 2 :=
      Nat.le_trans (Nat.le_max_left _ _) small
    obtain ⟨head, simulates⟩ := tracked.simulates
    have needs := growsAtNeed simulates single stays (by omega)
    obtain ⟨along, later⟩ := ih (tracked.perform single stays near)
      (fun other member => kept other (List.mem_cons_of_mem action member))
      (Nat.le_trans (Nat.le_max_right _ _) small)
    rw [Nat.max_assoc, Nat.add_assoc] at later
    exact ⟨⟨needs, along⟩, later⟩

/-! ## Every start -/

/-- A writer at its start: it has reached nothing, and has the memory that it was made on. -/
theorem Start.tracked (start : Start α) (minGrow : Option Nat) {pool : Pool α}
    (sound : pool.Sound) : Tracked (start.make minGrow pool) (start.make minGrow pool) 0 0 where
  simulates := ⟨_, start.simulates minGrow sound⟩
  minGrow_eq := rfl
  initialLength_eq := by cases start <;> rfl
  keeps := Nat.le_refl _
  covers := Nat.zero_le _
  bounded := by omega
  grown none := absurd none (Nat.lt_irrefl 0)
  doubled none := absurd none (Nat.lt_irrefl 0)
  rented := rfl

theorem Start.minGrow_make (start : Start α) (minGrow : Option Nat) (pool : Pool α) :
    (start.make minGrow pool).1.minGrow = minGrow := by
  cases start <;> rfl

/-- Growth is geometric, and goes no farther than it has to. From every start, on lent or rented
memory of any length and with or without a least first growth, a run that does not give the memory
back ends with memory that covers the farthest end of an operation, and is at most twice as long,
unless it is what the writer started on, the least growth on top of that, or the fallback of 256
cells. No operation makes the memory shorter. Those that reach behind the memory are the ones that
grow it, and each of them rents one array. Each growth but the first doubles the memory, so that
their number is logarithmic in its length. Elements added one by one count as so many operations. -/
theorem grows_geometrically (start : Start α) (minGrow : Option Nat) (pool : Pool α)
    (reachable : pool.Reachable) (actions : List (Action α))
    (kept : ∀ action ∈ actions, action.isDispose = false)
    (small : (start.make minGrow pool).1.farthest (start.make minGrow pool).2
      (actions.flatMap Action.singles) ≤ Size.maxCapacity / 2) :
    let first := start.make minGrow pool
    let last := first.1.run first.2 actions
    let singles := actions.flatMap Action.singles
    let far := first.1.farthest first.2 singles
    let growths := first.1.growths first.2 singles
    first.1.run first.2 singles = last ∧
    max first.1.capacity far ≤ last.1.capacity ∧
    last.1.capacity ≤
      max (max first.1.capacity (first.1.capacity + minGrow.getD 0)) (max 256 (2 * far)) ∧
    machine.Along GrowsAtNeed first singles ∧
    (1 ≤ growths → Nat.pow 2 (growths - 1) ≤ last.1.capacity) ∧
    growths ≤ 1 + last.1.capacity.log2 ∧
    last.2.counters.rented = first.2.counters.rented + growths := by
  intro first last singles far growths
  have parts : ∀ single ∈ singles, single.isRepeated = false ∧ single.isDispose = false := by
    intro single member
    obtain ⟨action, given, part⟩ := List.mem_flatMap.1 member
    exact Action.single_of_mem (kept action given) part
  have same : first.1.run first.2 singles = last := run_flatMap_singles actions first.1 first.2
  obtain ⟨along, tracked⟩ := Tracked.run singles (start.tracked minGrow reachable.sound) parts small
  rw [Nat.zero_max, Nat.zero_add] at tracked
  change Tracked first (first.1.run first.2 singles) far growths at tracked
  rw [same] at tracked
  have bounded := tracked.bounded
  rw [show first.1.minGrow = minGrow from start.minGrow_make minGrow pool] at bounded
  have fallback : fallbackGrowth = 256 := rfl
  refine ⟨same, Nat.max_le.2 ⟨tracked.keeps, tracked.covers⟩, by omega, along, tracked.doubled, ?_,
    tracked.rented⟩
  by_cases none : growths = 0
  · omega
  · -- A power of two within the capacity has an exponent within its logarithm.
    have doubled := tracked.doubled (Nat.pos_of_ne_zero none)
    have some_cells : last.1.capacity ≠ 0 :=
      Nat.ne_of_gt (Nat.lt_of_lt_of_le (Nat.two_pow_pos _) doubled)
    have power := (Nat.le_log2 some_cells).2 doubled
    omega

/-- Four cells of the caller's, outgrown by the last of five elements one by one, with a least
first growth of two, and once more by a run of four. -/
theorem grows_geometrically_twice :
    let first := (Start.memory #[(0 : UInt8), 0, 0, 0]).make (some 2) Pool.standard
    let actions := [.appendEach #[1, 2, 3, 4, 5], .appendRun #[6, 7, 8, 9]]
    let singles := actions.flatMap Action.singles
    (Pool.standard : Pool UInt8).Reachable ∧ (∀ action ∈ actions, action.isDispose = false) ∧
      first.1.farthest first.2 singles = 9 ∧ first.1.growths first.2 singles = 2 ∧
      max 4 9 ≤ (first.1.run first.2 actions).1.capacity ∧
      (first.1.run first.2 actions).1.capacity ≤ max (max 4 (4 + 2)) (max 256 (2 * 9)) ∧
      2 ≤ 1 + (first.1.run first.2 actions).1.capacity.log2 := by
  intro first actions singles
  have kept : ∀ action ∈ actions, action.isDispose = false := by
    intro action member
    simp only [actions, List.mem_cons, List.not_mem_nil, or_false] at member
    rcases member with rfl | rfl <;> rfl
  have far : first.1.farthest first.2 singles = 9 := by decide
  have twice : first.1.growths first.2 singles = 2 := by decide
  obtain ⟨-, lower, upper, -, -, few, -⟩ := grows_geometrically (.memory #[0, 0, 0, 0]) (some 2)
    Pool.standard Pool.reachable_standard actions kept (far.symm ▸ by decide)
  exact ⟨Pool.reachable_standard, kept, far, twice, far ▸ lower, far ▸ upper, twice ▸ few⟩

end Writer

end PooledBuffers
