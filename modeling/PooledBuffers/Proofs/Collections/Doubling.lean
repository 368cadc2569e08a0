import PooledBuffers.Proofs.Collections.Builder

/-!
# Doubling until a run fits

A builder that is too short for a run doubles a capacity in a loop, and rents an array for the one
that it ends with. The loop has no way out but a capacity that is long enough: from zero it would
never end. It never starts there, because the least capacity of a builder is one cell or more,
whatever was asked for; and it gets to every size from anywhere else, because a product that
would leave the range of sizes stops at the largest of them.

* `Builder.Loop` — the loop, turn by turn;
* `Builder.Loop.unique`, `Builder.loop_doubledTo`, `Builder.ends_iff` — when it ends, and how;
* `Builder.Loop.last_eq`, `Builder.Loop.short_of_lt`, `Builder.Loop.half_lt` — where it ends;
* `Builder.firstTry`, `Builder.Tight` — where a builder starts it, and what it then comes to;
* `Builder.minCapacity_perform`, `Builder.minCapacity_run` — no operation changes the least
  capacity;
* `Builder.addRun_cases`, `Builder.FindsRoom` — what becomes of a run that is added;
* `Builder.doubles_until_fits` — all of it, for every capacity, every builder and every pool.
-/

namespace PooledBuffers.Builder

/-! ## The loop -/

/-- The loop that looks for `required` cells: from the capacity at its start, by the number of its
turns, to the capacity at its end. A turn doubles what is too short, and does not ask whether it
gets any longer by that. -/
inductive Loop (required : Nat) : Nat → Nat → Nat → Prop where
  | ends {capacity : Nat} (enough : required ≤ capacity) : Loop required capacity 0 capacity
  | turn {capacity turns last : Nat} (short : capacity < required)
      (later : Loop required (Size.mul capacity 2) turns last) :
      Loop required capacity (turns + 1) last

/-- A capacity after some turns. -/
def afterTurns (capacity turns : Nat) : Nat := Size.mul capacity (Nat.pow 2 turns)

variable {required capacity turns last : Nat}

theorem afterTurns_zero (small : capacity ≤ Size.top) : afterTurns capacity 0 = capacity := by
  have one : capacity * Nat.pow 2 0 = capacity := Nat.mul_one capacity
  rw [afterTurns, Size.mul_eq (one.symm ▸ small), one]

theorem afterTurns_succ (capacity turns : Nat) :
    afterTurns capacity (turns + 1) = afterTurns (Size.mul capacity 2) turns := by
  have power : Nat.pow 2 (turns + 1) = 2 * Nat.pow 2 turns := Nat.pow_succ'
  have positive : 0 < Nat.pow 2 turns := Nat.two_pow_pos turns
  rw [afterTurns, afterTurns, power, Size.mul_mul positive]

/-- There is one way through the loop. -/
theorem Loop.unique (loop : Loop required capacity turns last) {others other : Nat}
    (again : Loop required capacity others other) : turns = others ∧ last = other := by
  induction loop generalizing others other with
  | ends enough =>
    cases again with
    | ends _ => exact ⟨rfl, rfl⟩
    | turn short _ => exact absurd enough (Nat.not_le_of_lt short)
  | turn short later ih =>
    cases again with
    | ends enough => exact absurd enough (Nat.not_le_of_lt short)
    | turn _ behind =>
      obtain ⟨sameTurns, sameLast⟩ := ih behind
      exact ⟨congrArg Nat.succ sameTurns, sameLast⟩

theorem Loop.enough (loop : Loop required capacity turns last) : required ≤ last := by
  induction loop with
  | ends enough => exact enough
  | turn _ _ ih => exact ih

theorem Loop.last_eq (loop : Loop required capacity turns last) (small : capacity ≤ Size.top) :
    last = afterTurns capacity turns := by
  induction loop with
  | ends _ => exact (afterTurns_zero small).symm
  | turn short later ih =>
    rw [afterTurns_succ]
    exact ih (Nat.min_le_right _ _)

/-- Every turn is needed: after fewer of them the capacity is too short. -/
theorem Loop.short_of_lt (loop : Loop required capacity turns last) {count : Nat}
    (fewer : count < turns) : afterTurns capacity count < required := by
  induction loop generalizing count with
  | ends _ => exact absurd fewer (Nat.not_lt_zero count)
  | @turn capacity turns last short later ih =>
    cases count with
    | zero =>
      have still : afterTurns capacity 0 ≤ capacity * 1 := Nat.min_le_left _ _
      omega
    | succ count =>
      rw [afterTurns_succ]
      exact ih (Nat.lt_of_succ_lt_succ fewer)

/-- What the last turn doubled was too short, also if the product was cut at the largest size. -/
theorem Loop.half_lt (loop : Loop required capacity turns last) (ran : 0 < turns) :
    last / 2 < required := by
  induction loop with
  | ends _ => exact absurd ran (Nat.lt_irrefl 0)
  | turn short later ih =>
    -- This turn is the last one, or there is a later one that is.
    cases later with
    | ends _ =>
      unfold Size.mul
      omega
    | turn _ _ => exact ih (Nat.succ_pos _)

/-- No size takes more turns than it has bits. -/
theorem Loop.turns_le (loop : Loop required capacity turns last) (positive : 0 < capacity)
    (small : required ≤ Size.top) : turns ≤ 64 := by
  have longer : Nat.pow 2 64 ≤ capacity * Nat.pow 2 64 := Nat.le_mul_of_pos_left _ positive
  have full : afterTurns capacity 64 = Size.top :=
    Nat.min_eq_right (Nat.le_trans (by decide) longer)
  refine Nat.le_of_not_lt fun more => ?_
  have short := loop.short_of_lt more
  omega

/-- The doubling that also stops where it gets no farther does what the loop does. -/
theorem loop_doubledTo (positive : 0 < capacity) (small : required ≤ Size.top) :
    ∃ turns, Loop required capacity turns (doubledTo required capacity) := by
  fun_induction doubledTo required capacity with
  | case1 capacity short ih =>
    obtain ⟨turns, later⟩ := ih (Nat.lt_trans positive short.2)
    exact ⟨turns + 1, .turn short.1 later⟩
  | case2 capacity long =>
    -- Only the largest size gets no longer when it is doubled, and no more than that is required.
    refine ⟨0, .ends ?_⟩
    unfold Size.mul at long
    omega

/-- A loop that starts from zero is back there after each turn, so that it ends at once or never. -/
theorem Loop.eq_zero (loop : Loop required 0 turns last) : required = 0 := by
  generalize start : 0 = capacity at loop
  induction loop with
  | ends enough => omega
  | turn short later ih =>
    subst start
    exact ih rfl

/-- The loop ends from every capacity but zero, and from zero only if nothing is required. -/
theorem ends_iff (small : required ≤ Size.top) :
    (∃ turns last, Loop required capacity turns last) ↔ 0 < capacity ∨ required = 0 := by
  constructor
  · rintro ⟨turns, last, loop⟩
    rcases Nat.eq_zero_or_pos capacity with rfl | positive
    · exact .inr loop.eq_zero
    · exact .inl positive
  · rintro (positive | rfl)
    · obtain ⟨turns, loop⟩ := loop_doubledTo positive small
      exact ⟨turns, _, loop⟩
    · exact ⟨0, capacity, .ends (Nat.zero_le capacity)⟩

/-! ## From where a builder starts -/

/-- What a builder tries first: twice the capacity that it has, and no less than the least one,
which is a cell or more. -/
def firstTry (current minCapacity : Nat) : Nat := max (Size.mul current 2) (max minCapacity 1)

theorem firstTry_pos (current minCapacity : Nat) : 0 < firstTry current minCapacity := by
  unfold firstTry
  omega

theorem firstTry_le {current minCapacity : Nat} (least : minCapacity ≤ Size.top) :
    firstTry current minCapacity ≤ Size.top :=
  Nat.max_le.2 ⟨Nat.min_le_right _ _, Nat.max_le.2 ⟨least, by decide⟩⟩

/-- A capacity at the end of the loop: it is long enough, and the loop took no turn too many. -/
structure Tight (current minCapacity required turns last : Nat) : Prop where
  computed : last = doubledTo required (firstTry current minCapacity)
  enough : required ≤ last
  in_range : last ≤ Size.top
  few : turns ≤ 64
  doubled : last = afterTurns (firstTry current minCapacity) turns
  needed : ∀ count < turns, afterTurns (firstTry current minCapacity) count < required
  /-- Half of what was doubled at all is too short, be the product in the range of sizes or not. -/
  half_short : 1 ≤ turns → last / 2 < required
  untouched : turns = 0 → last = max (min (2 * current) Size.top) (max minCapacity 1)

theorem Loop.tight {current minCapacity : Nat} (least : minCapacity ≤ Size.top)
    (small : required ≤ Size.top)
    (loop : Loop required (firstTry current minCapacity) turns last) :
    Tight current minCapacity required turns last := by
  have doubled := loop.last_eq (firstTry_le least)
  obtain ⟨_, again⟩ := loop_doubledTo (firstTry_pos current minCapacity) small
  exact
    { computed := (loop.unique again).2
      enough := loop.enough
      in_range := doubled ▸ Nat.min_le_right _ _
      few := loop.turns_le (firstTry_pos current minCapacity) small
      doubled := doubled
      needed := fun _ fewer => loop.short_of_lt fewer
      half_short := loop.half_lt
      untouched := fun none => by
        rw [doubled, none, afterTurns_zero (firstTry_le least), firstTry, Size.mul, Nat.mul_comm] }

/-! ## The least capacity -/

variable {α : Type} {builder : Builder α} {pool : Pool α} {run : Array α}

theorem minCapacity_edit (builder : Builder α) (f : Array α → Array α) :
    (builder.edit f).minCapacity = builder.minCapacity := by
  obtain ⟨lease, minCapacity, length⟩ := builder
  cases lease with
  | none => rfl
  | some lease => rfl

variable [Element α]

theorem minCapacity_add (builder : Builder α) (value : α) (pool : Pool α) :
    (builder.add value pool).1.minCapacity = builder.minCapacity := by
  unfold Builder.add
  by_cases full : builder.length = builder.capacity
  · rw [if_pos full]
    exact minCapacity_edit _ _
  · rw [if_neg full]
    exact minCapacity_edit _ _

theorem minCapacity_addRun (builder : Builder α) (run : Array α) (pool : Pool α) :
    (builder.addRun run pool).1.minCapacity = builder.minCapacity := by
  unfold Builder.addRun
  split
  · rfl
  by_cases short : builder.capacity < Size.add builder.length run.size
  · simp only [if_pos short]
    exact minCapacity_edit _ _
  · simp only [if_neg short]
    exact minCapacity_edit _ _

theorem minCapacity_addEach (builder : Builder α) (run : Array α) (pool : Pool α) :
    (builder.addEach run pool).1.minCapacity = builder.minCapacity := by
  rw [Builder.addEach, ← Array.foldl_toList]
  induction run.toList generalizing builder pool with
  | nil => rfl
  | cons value rest ih => exact (ih _ _).trans (minCapacity_add builder value pool)

theorem minCapacity_perform (builder : Builder α) (pool : Pool α) (action : Action α) :
    (builder.perform pool action).2.1.minCapacity = builder.minCapacity := by
  cases action with
  | add value => exact minCapacity_add builder value pool
  | addRun run => exact minCapacity_addRun builder run pool
  | addEach run => exact minCapacity_addEach builder run pool
  | set index value | setWritten index value =>
    simp only [Builder.perform, Builder.set]
    by_cases outside : builder.length ≤ index
    · rw [if_pos outside]
    · rw [if_neg outside]
      exact minCapacity_edit _ _
  | read | dispose => rfl

/-- The least capacity is never less than a cell, and stays what it was at the start. -/
theorem minCapacity_run (minCapacity : Nat) (pool : Pool α) (actions : List (Action α)) :
    ((withMinCapacity minCapacity).run pool actions).1.minCapacity = max minCapacity 1 := by
  suffices kept : ∀ state : Builder α × Pool α,
      (state.1.run state.2 actions).1.minCapacity = state.1.minCapacity from kept (_, pool)
  induction actions with
  | nil => exact fun _ => rfl
  | cons action rest ih =>
    exact fun state => (ih _).trans (minCapacity_perform state.1 state.2 action)

/-! ## Room for a run -/

omit [Element α] in
theorem physical_put (roomy : Builder α) (start length : Nat) :
    ({ roomy.edit (Storage.overwrite · start run) with length := length } : Builder α).physical =
      Storage.overwrite roomy.physical start run :=
  physical_edit roomy fun _ => Storage.size_overwrite _ _ _

/-- A run is written over the cells behind the elements, in the array that there is or in the one
that the doubling leads to. -/
theorem addRun_cases (builder : Builder α) (pool : Pool α) (some_items : run ≠ #[]) :
    (builder.addRun run pool).1.length = Size.add builder.length run.size ∧
    ∃ roomy : Builder α,
      (builder.addRun run pool).1.physical =
        Storage.overwrite roomy.physical builder.length run ∧
      (Size.add builder.length run.size ≤ builder.capacity ∧ roomy = builder ∨
        builder.capacity < Size.add builder.length run.size ∧
        roomy = (builder.grow (doubledTo (Size.add builder.length run.size)
          (max (Size.mul builder.capacity 2) builder.minCapacity)) pool).1) := by
  unfold Builder.addRun
  rw [if_neg fun nothing => some_items (Array.isEmpty_iff.1 nothing)]
  refine ⟨rfl, ?_⟩
  by_cases short : builder.capacity < Size.add builder.length run.size
  · refine ⟨_, ?_, .inr ⟨short, rfl⟩⟩
    simp only [if_pos short]
    exact physical_put _ _ _
  · refine ⟨_, ?_, .inl ⟨Nat.le_of_not_lt short, rfl⟩⟩
    simp only [if_neg short]
    exact physical_put _ _ _

/-- How long the array is after a growth is up to the pool. -/
theorem capacity_grow_eq (builder : Builder α) (requested : Nat) (pool : Pool α) :
    (builder.grow requested pool).1.capacity =
      (pool.rent (max requested builder.minCapacity)).1.capacity :=
  Storage.size_overwrite _ _ _

section

variable {minCapacity : Nat} (sound : pool.Sound)
  (clamped : builder.minCapacity = max minCapacity 1) (some_items : run ≠ #[])

include sound clamped some_items

/-- A run is written over the cells behind the elements, of an array that is long enough for it:
one that the pool gives for the end of the loop, if that of the builder is too short. -/
theorem exists_roomy :
    ∃ roomy : Builder α,
      (builder.addRun run pool).1.physical =
        Storage.overwrite roomy.physical builder.length run ∧
      Size.add builder.length run.size ≤ roomy.capacity ∧
      (builder.capacity < Size.add builder.length run.size → ∃ turns last,
        Loop (Size.add builder.length run.size) (firstTry builder.capacity minCapacity)
          turns last ∧
        last ≤ (pool.rent last).1.capacity ∧ roomy.capacity = (pool.rent last).1.capacity) := by
  obtain ⟨-, roomy, physical, ⟨long, rfl⟩ | ⟨-, rfl⟩⟩ := addRun_cases builder pool some_items
  · exact ⟨roomy, physical, long, fun short => absurd short (Nat.not_lt_of_le long)⟩
  rw [clamped] at physical
  obtain ⟨turns, loop⟩ := loop_doubledTo (firstTry_pos builder.capacity minCapacity)
    (Nat.min_le_right (builder.length + run.size) Size.top)
  -- The loop ends with no less than the least capacity, which it starts from.
  have least : max minCapacity 1 ≤ doubledTo (Size.add builder.length run.size)
      (firstTry builder.capacity minCapacity) :=
    Nat.le_trans (Nat.le_max_right _ _) (capacity_le_doubledTo _ _)
  refine ⟨_, physical, ?_, fun _ => ⟨turns, _, loop, Pool.le_size_rent sound _, ?_⟩⟩
  · exact Nat.le_trans loop.enough
      (Nat.le_trans (Nat.le_max_left _ _) (builder.capacity_grow sound _))
  · refine (builder.capacity_grow_eq _ pool).trans ?_
    rw [clamped]
    exact congrArg (fun length => (pool.rent length).1.capacity) (Nat.max_eq_left least)

end

/-- What becomes of a run that is added to a builder. -/
structure FindsRoom (minCapacity : Nat) (builder : Builder α) (pool : Pool α) (run : Array α) :
    Prop where
  /-- A builder that is too short gets the array that the pool has for the end of the loop. -/
  rented : builder.capacity < Size.add builder.length run.size → ∃ turns last,
    Loop (Size.add builder.length run.size) (firstTry builder.capacity minCapacity) turns last ∧
      last ≤ (pool.rent last).1.capacity ∧
      (builder.addRun run pool).1.capacity = (pool.rent last).1.capacity
  /-- The array holds the run behind the elements, if the end of the run can be counted. -/
  holds : builder.length + run.size ≤ Size.top →
    (builder.addRun run pool).1.length = builder.length + run.size ∧
      builder.length + run.size ≤ (builder.addRun run pool).1.capacity ∧
      (builder.addRun run pool).1.physical.extract builder.length (builder.length + run.size) = run

theorem findsRoom {minCapacity : Nat} (sound : pool.Sound)
    (clamped : builder.minCapacity = max minCapacity 1) (some_items : run ≠ #[]) :
    builder.FindsRoom minCapacity pool run := by
  obtain ⟨length, -⟩ := addRun_cases builder pool some_items
  obtain ⟨roomy, physical, room, rented⟩ := exists_roomy sound clamped some_items
  have capacity : (builder.addRun run pool).1.capacity = roomy.capacity := by
    rw [Builder.capacity, physical]
    exact Storage.size_overwrite _ _ _
  refine ⟨fun short => ?_, fun counted => ?_⟩
  · rw [capacity]
    exact rented short
  · rw [Size.add_eq counted] at length room
    rw [capacity, physical]
    exact ⟨length, room, Storage.extract_overwrite_self room⟩

/-! ## Every start and every state -/

/-- The doubling ends, and no farther than it has to. From every capacity, with whatever least
capacity was asked for, none included, the loop comes to an end, and to a capacity that is long
enough for every size required. It takes no turn that is not needed, so that half of a capacity
that was doubled at all is too short; one that was not is twice the capacity of before, the least
capacity, or one cell. No operation changes the least capacity that a builder is made with. Whatever
else there is of a builder, a run that it is too short for is given the array that the pool rents
for the end of the loop, of whatever configuration the pool is and whatever its users left in it;
and the array holds the whole run, if the end of the run can be counted. -/
theorem doubles_until_fits (minCapacity : Nat) (least : minCapacity ≤ Size.top) :
    (∀ current required, required ≤ Size.top →
      (∃ turns last, Loop required (firstTry current minCapacity) turns last) ∧
      ∀ turns last, Loop required (firstTry current minCapacity) turns last →
        Tight current minCapacity required turns last) ∧
    (∀ (pool : Pool α) (actions : List (Action α)),
      ((withMinCapacity minCapacity).run pool actions).1.minCapacity = max minCapacity 1) ∧
    ∀ (builder : Builder α) (pool : Pool α) (run : Array α),
      builder.minCapacity = max minCapacity 1 → pool.Reachable → run ≠ #[] →
      builder.FindsRoom minCapacity pool run := by
  refine ⟨fun current required small => ⟨?_, ?_⟩, ?_, ?_⟩
  · exact (ends_iff small).2 (.inl (firstTry_pos current minCapacity))
  · exact fun turns last loop => loop.tight least small
  · exact minCapacity_run minCapacity
  · intro builder pool run clamped reachable some_items
    exact findsRoom reachable.sound clamped some_items

/-- From one cell to more than half of all sizes, in as many turns as there can be, the last of
them cut at the largest size; and a run of forty behind three elements, for which twice sixteen
cells are doubled once. -/
theorem doubles_until_fits_from_one_cell :
    let pool : Pool UInt32 := .standard
    let actions : List (Action UInt32) := [.add 1, .add 2, .add 3]
    let builder := ((withMinCapacity 0).run pool actions).1
    let run : Array UInt32 := Array.replicate 40 7
    0 ≤ Size.top ∧ 9223372036854775809 ≤ Size.top ∧
      Loop 9223372036854775809 (firstTry 0 0) 64 Size.top ∧
      Tight 0 0 9223372036854775809 64 Size.top ∧
      builder.minCapacity = max 0 1 ∧ pool.Reachable ∧ run ≠ #[] ∧
      builder.capacity < Size.add builder.length run.size ∧
      builder.length + run.size ≤ Size.top ∧ (builder.addRun run pool).1.capacity = 64 ∧
      (builder.addRun run pool).1.physical.extract 3 43 = run := by
  intro pool actions builder run
  have some_items : run ≠ #[] := by decide
  obtain ⟨ends, clamped, room⟩ := @doubles_until_fits UInt32 _ 0 (Nat.zero_le _)
  obtain ⟨⟨turns, last, loop⟩, tight⟩ := ends 0 9223372036854775809 (by decide)
  have reached := tight turns last loop
  -- All turns but the last lead to half of the sizes only.
  have most : turns = 64 := by
    have enough := reached.enough
    rw [reached.doubled] at enough
    refine Nat.le_antisymm reached.few (Nat.le_of_not_lt fun fewer => ?_)
    have power : Nat.pow 2 turns ≤ Nat.pow 2 63 :=
      Nat.pow_le_pow_right (by decide) (Nat.le_of_lt_succ fewer)
    have within : afterTurns (firstTry 0 0) turns ≤ 1 * Nat.pow 2 turns := Nat.min_le_left _ _
    have half : Nat.pow 2 63 = 9223372036854775808 := by decide
    omega
  subst most
  obtain rfl : last = Size.top := reached.doubled.trans (by decide)
  have length : builder.length = 3 := by decide
  have capacity : builder.capacity = 16 := by decide
  have least : builder.minCapacity = max 0 1 := clamped pool actions
  have found := room builder pool run least Pool.reachable_standard some_items
  have short : builder.capacity < Size.add builder.length run.size := by decide
  have counted : builder.length + run.size ≤ Size.top := by decide
  obtain ⟨turns, last, once, -, rented⟩ := found.rented short
  have turn : Loop (Size.add builder.length run.size) (firstTry builder.capacity 0) 1 64 := by
    rw [length, capacity]
    exact .turn (by decide) (.ends (by decide))
  obtain ⟨rfl, rfl⟩ := once.unique turn
  obtain ⟨-, -, holds⟩ := found.holds counted
  exact ⟨Nat.zero_le _, by decide, loop, reached, least, Pool.reachable_standard, some_items, short,
    counted, rented, holds⟩

end PooledBuffers.Builder
