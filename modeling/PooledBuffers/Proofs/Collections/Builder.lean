import PooledBuffers.Proofs.Collections.Capacity
import PooledBuffers.Proofs.Machine
import PooledBuffers.Proofs.Pool.Checks
import PooledBuffers.Proofs.Sequences

/-!
# A builder gathers elements in order

A builder has no array before its first element. From then on its array is long enough for the
elements, which are the first cells of it, whatever lay there before; an array that is outgrown is
exchanged for one at least twice as long, and the doubling that finds its length comes to an end.

* `Builder.Stores`, `Builder.Represents` — a builder with its pool that holds given elements;
* `Builder.Stores.grow`, `Builder.Stores.add`, `Builder.Stores.addRun`, … — what the operations
  leave;
* `Builder.check` — the bounds of an operation, in the order in which it relies on them;
* `Builder.Doubles` — the capacity stayed, or at least doubled;
* `Builder.refines_plain` — one operation; `Builder.gathers_in_order` — all runs of operations.
-/

namespace PooledBuffers.Builder

variable {α : Type}

/-- A builder with its pool has these elements in its array, which is never shorter than `least`. -/
structure Stores (least : Nat) (state : Builder α × Pool α) (items : List α) : Prop where
  /-- The array can go back to the pool. -/
  backs : state.2.Backs state.1.lease
  positive : 0 < least
  least_eq : state.1.minCapacity = least
  least_le : ∀ lease ∈ state.1.lease, least ≤ lease.cells.size
  length_eq : state.1.length = items.length
  begins : items <+: state.1.physical.toList

/-- A builder with its pool holds these elements, and no array if there are none. -/
structure Represents (least : Nat) (state : Builder α × Pool α) (items : List α) : Prop
    extends Stores least state items where
  nothing : items = [] → state.1.lease = none

variable {builder : Builder α} {pool : Pool α} {least : Nat} {items : List α}

theorem physical_edit (builder : Builder α) {f : Array α → Array α}
    (same : ∀ cells, (f cells).size = cells.size) :
    (builder.edit f).physical = f builder.physical := by
  obtain ⟨lease, minCapacity, length⟩ := builder
  cases lease with
  | none => exact (Array.eq_empty_of_size_eq_zero (same #[])).symm
  | some lease => rfl

namespace Stores

theorem length_le {state : Builder α × Pool α} (stores : Stores least state items) :
    state.1.length ≤ state.1.capacity := by
  have within := stores.begins.length_le
  rw [Array.length_toList] at within
  rw [stores.length_eq]
  exact within

theorem toArray_eq {state : Builder α × Pool α} (stores : Stores least state items) :
    state.1.toArray.toList = items := by
  rw [toArray, stores.length_eq]
  exact Storage.toList_extract_of_begins stores.begins

/-- Without an array there are no elements. -/
theorem items_eq_nil {state : Builder α × Pool α} (stores : Stores least state items)
    (idle : state.1.lease = none) : items = [] := by
  have within := stores.length_le
  rw [stores.length_eq, capacity, physical, idle] at within
  exact List.eq_nil_of_length_eq_zero (Nat.le_zero.1 within)

/-- Other elements in the same array. -/
theorem edit {state : Builder α × Pool α} (stores : Stores least state items)
    {f : Array α → Array α} (same : ∀ cells, (f cells).size = cells.size) {changed : List α}
    {length : Nat} (length_eq : length = changed.length)
    (begins : changed <+: (f state.1.physical).toList) :
    Stores least ({ state.1.edit f with length := length }, state.2) changed := by
  rw [← physical_edit _ same] at begins
  obtain ⟨⟨lease, minCapacity, old⟩, pool⟩ := state
  obtain ⟨backs, positive, least_eq, least_le, -, -⟩ := stores
  cases lease with
  | none => exact ⟨backs, positive, least_eq, nofun, length_eq, begins⟩
  | some lease =>
    refine ⟨backs.with_cells (same lease.cells), positive, least_eq, ?_, length_eq, begins⟩
    rintro _ ⟨⟩
    show least ≤ (f lease.cells).size
    rw [same]
    exact least_le lease rfl

/-- A run behind the elements. -/
theorem put {state : Builder α × Pool α} (stores : Stores least state items) (run : Array α)
    (room : state.1.length + run.size ≤ state.1.capacity) :
    Stores least ({ state.1.edit (Storage.overwrite · state.1.length run) with
      length := state.1.length + run.size }, state.2) (items ++ run.toList) := by
  have length := stores.length_eq
  refine stores.edit (fun _ => Storage.size_overwrite _ _ _) ?_ ?_
  · rw [List.length_append, length, @Array.length_toList _ run]
  · rw [length] at room ⊢
    exact Storage.begins_append stores.begins run room

variable [Element α]

/-- The elements come along to a new array, and the old one goes back. -/
theorem grow (stores : Stores least (builder, pool) items) (requested : Nat)
    (enough : items.length ≤ max requested least) :
    Stores least (builder.grow requested pool) items := by
  have held : pool.Backs builder.lease := stores.backs
  have least_eq : builder.minCapacity = least := stores.least_eq
  have elements : builder.toArray.toList = items := stores.toArray_eq
  have size : builder.toArray.size = items.length := by rw [← Array.length_toList, elements]
  subst least_eq
  have long := Pool.le_size_rent held.sound (max requested builder.minCapacity)
  have rented := held.rent (max requested builder.minCapacity)
  have still := held.still (max requested builder.minCapacity)
  have copied := Storage.begins_run (pool.rent (max requested builder.minCapacity)).1.cells
    builder.toArray (size ▸ Nat.le_trans enough long)
  rw [elements] at copied
  refine ⟨?_, stores.positive, rfl, ?_, stores.length_eq, copied⟩
  · have written := rented.with_cells
      (Storage.size_overwrite (pool.rent (max requested builder.minCapacity)).1.cells 0
        builder.toArray)
    simp only [Builder.grow]
    cases old : builder.lease with
    | none => exact written
    | some lease =>
      rw [old] at still
      exact still.giveBack written
  · rintro _ ⟨⟩
    refine Nat.le_trans (Nat.le_max_right _ _) (Nat.le_trans long (Nat.le_of_eq ?_))
    exact (Storage.size_overwrite _ _ _).symm

/-! ## Operations -/

theorem add (stores : Stores least (builder, pool) items) (value : α)
    (short : (items ++ [value]).length ≤ Size.top) :
    Stores least (builder.add value pool) (items ++ [value]) := by
  rw [List.length_append, List.length_singleton] at short
  have length : builder.length = items.length := stores.length_eq
  have inside : builder.length ≤ builder.capacity := stores.length_le
  have positive := stores.positive
  have least_eq : builder.minCapacity = least := stores.least_eq
  unfold Builder.add
  by_cases full : builder.length = builder.capacity
  · rw [if_pos full]
    have sound : pool.Sound := stores.backs.sound
    have wanted := builder.capacity_grow sound (Size.mul builder.capacity 2)
    refine (stores.grow (Size.mul builder.capacity 2) ?_).put #[value] ?_
    · unfold Size.mul
      omega
    · -- A doubled capacity is longer, but for that of no array.
      unfold Size.mul at wanted ⊢
      show builder.length + 1 ≤ _
      omega
  · rw [if_neg full]
    exact stores.put #[value] (Nat.lt_of_le_of_ne inside full)

theorem addRun (stores : Stores least (builder, pool) items) (run : Array α)
    (short : (items ++ run.toList).length ≤ Size.top) :
    Stores least (builder.addRun run pool) (items ++ run.toList) := by
  rw [List.length_append, @Array.length_toList _ run] at short
  have length : builder.length = items.length := stores.length_eq
  have required : Size.add builder.length run.size = builder.length + run.size :=
    Size.add_eq (length ▸ short)
  unfold Builder.addRun
  rw [required]
  split
  · rename_i nothing
    rw [Array.isEmpty_iff.1 nothing, Array.toList_empty, List.append_nil]
    exact stores
  by_cases more : builder.capacity < builder.length + run.size
  · simp only [if_pos more]
    have positive := stores.positive
    have least_eq : builder.minCapacity = least := stores.least_eq
    have reached := le_doubledTo (builder.length + run.size)
      (max (Size.mul builder.capacity 2) builder.minCapacity) (by omega) (length ▸ short)
    generalize doubledTo _ _ = requested at reached ⊢
    have sound : pool.Sound := stores.backs.sound
    have wanted := builder.capacity_grow sound requested
    exact (stores.grow requested (by omega)).put run (by show builder.length + run.size ≤ _; omega)
  · simp only [if_neg more]
    exact stores.put run (Nat.le_of_not_lt more)

theorem addEach (stores : Stores least (builder, pool) items) (run : Array α)
    (short : (items ++ run.toList).length ≤ Size.top) :
    Stores least (builder.addEach run pool) (items ++ run.toList) := by
  rw [← foldl_snoc] at short ⊢
  rw [Builder.addEach, ← Array.foldl_toList]
  exact Machine.foldl_related (Stores least) length_le_snoc
    (fun value held short => held.add value short) run.toList stores short

omit [Element α] in
theorem set (stores : Stores least (builder, pool) items) (index : Nat) (value : α) :
    (builder.length ≤ index ∧
        builder.set index value = .error (.outOfRange "index" index builder.length)) ∨
      ∃ next, index < builder.length ∧ builder.set index value = .ok next ∧
        next.capacity = builder.capacity ∧ Stores least (next, pool) (items.set index value) := by
  unfold Builder.set
  split
  · rename_i outside
    exact .inl ⟨outside, rfl⟩
  · rename_i inside
    refine .inr ⟨_, Nat.lt_of_not_le inside, rfl, ?_, ?_⟩
    · exact builder.capacity_edit fun _ => Array.size_setIfInBounds
    · have length : builder.length = (items.set index value).length := by
        rw [List.length_set]
        exact stores.length_eq
      rw [← with_length_edit]
      exact stores.edit (fun _ => Array.size_setIfInBounds) length
        (Storage.begins_set stores.begins index value)

theorem dispose (stores : Stores least (builder, pool) items) :
    Stores least (builder.dispose pool) [] := by
  have held : pool.Backs builder.lease := stores.backs
  refine ⟨?_, stores.positive, stores.least_eq, nofun, rfl, ⟨_, rfl⟩⟩
  unfold Builder.dispose
  cases old : builder.lease with
  | none => exact held.nothing
  | some lease =>
    rw [old] at held
    exact held.giveBack held.nothing

end Stores

/-! ## Capacities -/

/-- A capacity that stayed, or at least doubled, as far as sizes go. -/
def Doubles (before after : Nat) : Prop := after = before ∨ Size.mul before 2 ≤ after

theorem Doubles.trans {first second third : Nat} (before : Doubles first second)
    (after : Doubles second third) : Doubles first third := by
  rcases before with rfl | before
  · exact after
  rcases after with rfl | after
  · exact .inr before
  · -- Twice what was doubled is no less, unless both are the largest size.
    refine .inr ?_
    unfold Size.mul at before after ⊢
    omega

section Doubling

variable [Element α]

omit [Element α] in
/-- What is written to the array, and how much of it is in use, does not matter. -/
theorem Doubles.edit {before : Nat} {grown : Builder α} (doubles : Doubles before grown.capacity)
    {f : Array α → Array α} (same : ∀ cells, (f cells).size = cells.size) (length : Nat) :
    Doubles before ({ grown.edit f with length := length } : Builder α).capacity := by
  rw [← grown.capacity_edit same] at doubles
  exact doubles

theorem doubles_grow (sound : pool.Sound) (builder : Builder α) {requested : Nat}
    (twice : Size.mul builder.capacity 2 ≤ requested) :
    Doubles builder.capacity (builder.grow requested pool).1.capacity :=
  .inr (Nat.le_trans twice (Nat.le_trans (Nat.le_max_left _ _) (builder.capacity_grow sound _)))

theorem doubles_add (sound : pool.Sound) (builder : Builder α) (value : α) :
    Doubles builder.capacity (builder.add value pool).1.capacity := by
  unfold Builder.add
  by_cases full : builder.length = builder.capacity
  · rw [if_pos full]
    exact (doubles_grow sound builder (Nat.le_refl _)).edit (fun _ => Array.size_setIfInBounds) _
  · rw [if_neg full]
    exact Doubles.edit (.inl rfl) (fun _ => Array.size_setIfInBounds) _

theorem doubles_addRun (sound : pool.Sound) (builder : Builder α) (run : Array α) :
    Doubles builder.capacity (builder.addRun run pool).1.capacity := by
  have twice := Nat.le_trans (Nat.le_max_left (Size.mul builder.capacity 2) builder.minCapacity)
    (capacity_le_doubledTo (Size.add builder.length run.size) _)
  unfold Builder.addRun
  split
  · exact .inl rfl
  by_cases more : builder.capacity < Size.add builder.length run.size
  · simp only [if_pos more]
    exact (doubles_grow sound builder twice).edit (fun _ => Storage.size_overwrite _ _ _) _
  · simp only [if_neg more]
    exact Doubles.edit (.inl rfl) (fun _ => Storage.size_overwrite _ _ _) _

theorem Stores.doubles_addEach (stores : Stores least (builder, pool) items) (run : Array α)
    (short : (items ++ run.toList).length ≤ Size.top) :
    Doubles builder.capacity (builder.addEach run pool).1.capacity := by
  rw [← foldl_snoc] at short
  rw [Builder.addEach, ← Array.foldl_toList]
  refine (Machine.foldl_related
    (fun state items => Stores least state items ∧ Doubles builder.capacity state.1.capacity)
    length_le_snoc (fun value held short => ?_) run.toList ⟨stores, .inl rfl⟩ short).2
  exact ⟨held.1.add value short, held.2.trans (doubles_add held.1.backs.sound _ value)⟩

end Doubling

/-! ## Checks -/

/-- The elements are no more than the array has cells. -/
def checkView (builder : Builder α) : Except Overrun Unit :=
  demand builder.length builder.capacity

variable [Element α]

/-- The new array is there and takes the elements, and the old one can go back after that. -/
def checkGrow (builder : Builder α) (requested : Nat) (pool : Pool α) : Except Overrun Unit := do
  pool.checkRent (max requested builder.minCapacity)
  builder.checkView
  demand builder.length (pool.rent (max requested builder.minCapacity)).1.cells.size
  (pool.rent (max requested builder.minCapacity)).2.checkReturn builder.lease

/-- One element more can be counted, and lies in the array once there is room for it. -/
def checkAdd (builder : Builder α) (value : α) (pool : Pool α) : Except Overrun Unit := do
  if builder.length = builder.capacity then
    builder.checkGrow (Size.mul builder.capacity 2) pool
  demand (builder.length + 1) Size.top
  (builder.add value pool).1.checkView

/-- Where a run ends can be counted, the doubling gets there, and the array then has as many cells
for the run as it has elements. -/
def checkAddRun (builder : Builder α) (run : Array α) (pool : Pool α) : Except Overrun Unit :=
  if run.isEmpty then .ok ()
  else do
    demand (builder.length + run.size) (Size.add builder.length run.size)
    if builder.capacity < Size.add builder.length run.size then
      let enough := doubledTo (Size.add builder.length run.size)
        (max (Size.mul builder.capacity 2) builder.minCapacity)
      demand (Size.add builder.length run.size) enough
      builder.checkGrow enough pool
    (builder.addRun run pool).1.checkView

/-- Checks the bounds that an operation relies on. -/
def check (builder : Builder α) (pool : Pool α) : Action α → Except Overrun Unit
  | .add value => builder.checkAdd value pool
  | .addRun run => builder.checkAddRun run pool
  | .addEach run =>
    Machine.checkEach (fun state value => state.1.checkAdd value state.2)
      (fun state value => state.1.add value state.2) (builder, pool) run.toList
  | .set .. | .setWritten .. | .read => builder.checkView
  | .dispose => pool.checkReturn builder.lease

namespace Stores

omit [Element α] in
theorem checkView_eq_ok {state : Builder α × Pool α} (stores : Stores least state items) :
    state.1.checkView = .ok () :=
  demand_eq_ok stores.length_le

theorem checkGrow_eq_ok (stores : Stores least (builder, pool) items) (requested : Nat)
    (enough : items.length ≤ max requested least) : builder.checkGrow requested pool = .ok () := by
  have held : pool.Backs builder.lease := stores.backs
  have length : builder.length = items.length := stores.length_eq
  have least_eq : builder.minCapacity = least := stores.least_eq
  have long := Pool.le_size_rent held.sound (max requested builder.minCapacity)
  rw [checkGrow, check_bind (held.checkRent_eq_ok _), check_bind stores.checkView_eq_ok,
    check_bind (demand_eq_ok (by omega))]
  exact (held.still _).checkReturn_eq_ok

theorem checkAdd_eq_ok (stores : Stores least (builder, pool) items) (value : α)
    (short : (items ++ [value]).length ≤ Size.top) : builder.checkAdd value pool = .ok () := by
  have length : builder.length = items.length := stores.length_eq
  have counted : builder.length + 1 ≤ Size.top := by
    rw [List.length_append, List.length_singleton] at short
    exact length.symm ▸ short
  have added := (stores.add value short).checkView_eq_ok
  unfold checkAdd
  split
  · have grown := stores.checkGrow_eq_ok (Size.mul builder.capacity 2) (by
      unfold Size.mul
      omega)
    rw [check_bind grown, check_bind (demand_eq_ok counted)]
    exact added
  · rw [check_bind (demand_eq_ok counted)]
    exact added

theorem checkAddRun_eq_ok (stores : Stores least (builder, pool) items) (run : Array α)
    (short : (items ++ run.toList).length ≤ Size.top) : builder.checkAddRun run pool = .ok () := by
  have added := (stores.addRun run short).checkView_eq_ok
  rw [List.length_append, @Array.length_toList _ run] at short
  have length : builder.length = items.length := stores.length_eq
  have positive := stores.positive
  have least_eq : builder.minCapacity = least := stores.least_eq
  have required : Size.add builder.length run.size = builder.length + run.size :=
    Size.add_eq (length ▸ short)
  unfold checkAddRun
  rw [required]
  split
  · rfl
  rw [check_bind (demand_eq_ok (Nat.le_refl _))]
  split
  · have reached := le_doubledTo (builder.length + run.size)
      (max (Size.mul builder.capacity 2) builder.minCapacity) (by omega) (length ▸ short)
    rw [check_bind (demand_eq_ok reached), check_bind (stores.checkGrow_eq_ok _ (by omega))]
    exact added
  · exact added

end Stores

/-! ## Plain lists -/

/-- A builder with its pool, as it answers operations. -/
def machine : Machine (Builder α × Pool α) (Action α) (Reply α) :=
  fun state action => state.1.perform state.2 action

omit [Element α] in
/-- A plain list that is appended to and overwritten. -/
def plain : Machine (List α) (Action α) (Reply α)
  | items, .add value => (.done, items ++ [value])
  | items, .addRun run => (.done, items ++ run.toList)
  | items, .addEach run => (.done, items ++ run.toList)
  | items, .set index value =>
    (if index < items.length then .done else .refused (.outOfRange "index" index items.length),
      items.set index value)
  | items, .setWritten index value => (.flag (index < items.length), items.set index value)
  | items, .read => (.run items.toArray, items)
  | _, .dispose => (.done, [])

omit [Element α] in
/-- Only giving the array back removes elements. -/
theorem of_plain_eq_nil {action : Action α} (none : (plain items action).2 = []) :
    items = [] ∨ action = .dispose := by
  cases action with
  | add value | addRun run | addEach run => exact .inl (List.append_eq_nil_iff.1 none).1
  | set index value | setWritten index value => exact .inl ((List.set_eq_nil_iff _ _).1 none)
  | read => exact .inl none
  | dispose => exact .inr rfl

theorem Stores.perform (stores : Stores least (builder, pool) items) (action : Action α)
    (countable : plain.Countable items action) :
    (builder.perform pool action).1 = (plain items action).1 ∧
      Stores least (builder.perform pool action).2 (plain items action).2 := by
  have length : builder.length = items.length := stores.length_eq
  cases action with
  | add value => exact ⟨rfl, stores.add value countable⟩
  | addRun run => exact ⟨rfl, stores.addRun run countable⟩
  | addEach run => exact ⟨rfl, stores.addEach run countable⟩
  | set index value =>
    simp only [Builder.perform, plain]
    rcases stores.set index value with ⟨outside, refused⟩ | ⟨next, inside, done, -, stored⟩
    · rw [refused, List.set_eq_of_length_le (length ▸ outside), if_neg (by omega), length]
      exact ⟨rfl, stores⟩
    · rw [done, if_pos (length ▸ inside)]
      exact ⟨rfl, stored⟩
  | setWritten index value =>
    simp only [Builder.perform, plain]
    rcases stores.set index value with ⟨outside, refused⟩ | ⟨next, inside, done, -, stored⟩
    · rw [refused, List.set_eq_of_length_le (length ▸ outside), decide_eq_false (by omega)]
      exact ⟨rfl, stores⟩
    · rw [done, decide_eq_true (length ▸ inside)]
      exact ⟨rfl, stored⟩
  | read =>
    refine ⟨congrArg Reply.run ?_, stores⟩
    rw [← stores.toArray_eq]
  | dispose => exact ⟨rfl, stores.dispose⟩

theorem Stores.check_eq_ok (stores : Stores least (builder, pool) items) (action : Action α)
    (countable : plain.Countable items action) : builder.check pool action = .ok () := by
  cases action with
  | add value => exact stores.checkAdd_eq_ok value countable
  | addRun run => exact stores.checkAddRun_eq_ok run countable
  | addEach run =>
    have short : (items ++ run.toList).length ≤ Size.top := countable
    rw [← foldl_snoc] at short
    refine Machine.checkEach_eq_ok (Stores least) length_le_snoc
      (fun value held short => ⟨?_, held.add value short⟩) run.toList stores short
    exact held.checkAdd_eq_ok value short
  | dispose => exact stores.backs.checkReturn_eq_ok
  | set _ _ | setWritten _ _ | read => exact stores.checkView_eq_ok

/-- Only giving the array back leaves less room than there was. -/
theorem Stores.doubles (stores : Stores least (builder, pool) items) (action : Action α)
    (countable : plain.Countable items action) (kept : action ≠ .dispose) :
    Doubles builder.capacity (builder.perform pool action).2.1.capacity := by
  have sound : pool.Sound := stores.backs.sound
  cases action with
  | add value => exact doubles_add sound builder value
  | addRun run => exact doubles_addRun sound builder run
  | addEach run => exact stores.doubles_addEach run countable
  | set index value =>
    simp only [Builder.perform]
    rcases stores.set index value with ⟨-, refused⟩ | ⟨next, -, done, same, -⟩
    · rw [refused]
      exact .inl rfl
    · rw [done]
      exact .inl same
  | setWritten index value =>
    simp only [Builder.perform]
    rcases stores.set index value with ⟨-, refused⟩ | ⟨next, -, done, same, -⟩
    · rw [refused]
      exact .inl rfl
    · rw [done]
      exact .inl same
  | read => exact .inl rfl
  | dispose => exact absurd rfl kept

namespace Represents

/-- Nothing happens to a builder without elements as long as it gets none. -/
theorem perform_of_nil (represents : Represents least (builder, pool) []) {action : Action α}
    (none_added : (plain [] action).2 = []) :
    (builder.perform pool action).2 = (builder, pool) := by
  have idle : builder.lease = none := represents.nothing rfl
  have length : builder.length = 0 := represents.length_eq
  cases action with
  | add value => cases none_added
  | addRun run =>
    obtain rfl : run = #[] := Array.toList_eq_nil_iff.1 none_added
    rfl
  | addEach run =>
    obtain rfl : run = #[] := Array.toList_eq_nil_iff.1 none_added
    rfl
  | set index value =>
    have outside : builder.length ≤ index := length ▸ Nat.zero_le index
    simp only [Builder.perform, Builder.set, if_pos outside]
  | setWritten index value =>
    have outside : builder.length ≤ index := length ▸ Nat.zero_le index
    simp only [Builder.perform, Builder.set, if_pos outside]
  | read => rfl
  | dispose =>
    obtain ⟨lease, minCapacity, _⟩ := builder
    subst idle
    subst length
    rfl

theorem perform (represents : Represents least (builder, pool) items) (action : Action α)
    (countable : plain.Countable items action) :
    Represents least (builder.perform pool action).2 (plain items action).2 := by
  refine ⟨(represents.toStores.perform action countable).2, fun none => ?_⟩
  rcases of_plain_eq_nil none with rfl | rfl
  · rw [represents.perform_of_nil none]
    exact represents.nothing rfl
  · rfl

end Represents

/-- A builder does as a plain list does, one operation after another. -/
theorem refines_plain (least : Nat) : Machine.Refines (@machine α _) plain
    (Represents least) plain.Countable where
  answer represents countable := (represents.toStores.perform _ countable).1
  next represents countable := represents.perform _ countable

/-! ## Runs -/

omit [Element α] in
theorem represents_withMinCapacity (sound : pool.Sound)
    (small : pool.config.maxArrayLength ≤ Size.top) (minCapacity : Nat) :
    Represents (max minCapacity 1) (withMinCapacity minCapacity, pool) [] where
  backs := ⟨sound, small, nofun, nofun⟩
  positive := Nat.le_max_right _ _
  least_eq := rfl
  least_le := nofun
  length_eq := rfl
  begins := ⟨_, rfl⟩
  nothing _ := rfl

/-- A builder gathers elements as a plain list does: of whatever configuration the pool is and
whatever its users left in its arrays, with any least capacity, a builder answers every run of
operations as a plain list does, as long as its elements can be counted, and has the elements of
that list. A store is refused where there is no element, and only there, and then nothing happens.
There is an array if and only if there are elements; until the first one comes, nothing happens to
the builder and its pool. An array is as long as the least capacity, as one cell and as the
elements, and is exchanged for one at least twice as long only. No operation of the run reaches
outside its array, and the doubling of the capacity comes to an end in all of them. -/
theorem gathers_in_order (pool : Pool α) (reachable : pool.Reachable)
    (small : pool.config.maxArrayLength ≤ Size.top) (minCapacity : Nat)
    (actions : List (Action α)) (countable : plain.Along plain.Countable [] actions) :
    let first : Builder α := withMinCapacity minCapacity
    let last := first.run pool actions
    let items := (plain.play [] actions).2
    (machine.play (first, pool) actions).1 = (plain.play [] actions).1 ∧
    (last.1.toArray.toList = items ∧ last.1.length = items.length) ∧
    (∀ index value, (last.1.length ≤ index ↔
        last.1.set index value = .error (.outOfRange "index" index last.1.length)) ∧
      (last.1.length ≤ index → (last.1.perform last.2 (.set index value)).2 = last)) ∧
    (last.1.lease = none ↔ items = []) ∧
    (items = [] → ∀ action, (plain [] action).2 = [] →
      (last.1.perform last.2 action).2 = last) ∧
    (last.1.lease ≠ none → max (max minCapacity 1) last.1.length ≤ last.1.capacity) ∧
    machine.Along (fun state action => state.1.check state.2 action = .ok () ∧
      (action ≠ .dispose → Doubles state.1.capacity (machine state action).2.1.capacity))
      (first, pool) actions := by
  intro first last items
  have begins : Represents (max minCapacity 1) (first, pool) [] :=
    represents_withMinCapacity reachable.sound small minCapacity
  obtain ⟨answers, ends⟩ := (refines_plain _).play actions begins countable
  have represents : Represents (max minCapacity 1) last items := by
    rw [Machine.play_state] at ends
    exact ends
  have stores := represents.toStores
  refine ⟨answers, ⟨stores.toArray_eq, stores.length_eq⟩, ?_, ⟨stores.items_eq_nil,
    represents.nothing⟩, ?_, ?_, ?_⟩
  · intro index value
    refine ⟨⟨fun outside => if_pos outside, fun refused => ?_⟩, fun outside => ?_⟩
    · rcases stores.set index value with ⟨outside, -⟩ | ⟨next, -, done, -⟩
      · exact outside
      · cases refused.symm.trans done
    · simp only [Builder.perform, Builder.set, if_pos outside]
  · intro none action none_added
    rw [none] at represents
    exact represents.perform_of_nil none_added
  · intro held
    obtain ⟨lease, here⟩ := Option.ne_none_iff_exists'.1 held
    refine Nat.max_le.2 ⟨?_, stores.length_le⟩
    rw [capacity, physical, here]
    exact stores.least_le lease here
  · refine (refines_plain _).along (fun held counted => ⟨?_, ?_⟩) actions begins countable
    · exact held.toStores.check_eq_ok _ counted
    · exact held.toStores.doubles _ counted

/-- A run many times longer than the array there is, and elements after the array was given back. -/
theorem gathers_in_order_regrown :
    let pool : Pool UInt32 := .standard
    let actions : List (Action UInt32) := [.set 0 9, .add 1, .addRun (Array.replicate 70 2),
      .set 1 3, .dispose, .addRun #[], .addEach #[4, 5], .setWritten 0 6, .set 2 7]
    pool.Reachable ∧ pool.config.maxArrayLength ≤ Size.top ∧
      plain.Along plain.Countable [] actions ∧
      ((withMinCapacity 0).run pool actions).1.toArray.toList = [6, 5] := by
  intro pool actions
  have small : pool.config.maxArrayLength ≤ Size.top := by decide
  have countable : plain.Along plain.Countable [] actions := by decide
  obtain ⟨-, ⟨elements, -⟩, -⟩ :=
    gathers_in_order pool Pool.reachable_standard small 0 actions countable
  exact ⟨Pool.reachable_standard, small, countable, elements⟩

end PooledBuffers.Builder
