import PooledBuffers.Proofs.Collections.Elements

/-!
# A growing list is a plain list

Whatever its capacity is and however it moves between arrays, a growing list answers as a plain list
does, and holds the same elements. On the way it keeps to every bound that it relies on: only an
index that its caller makes up can lie outside.

* `GrowList.check` — the bounds of an operation, in the order in which it relies on them;
* `GrowList.plain` — a plain list under the same operations;
* `GrowList.refines_plain` — one operation; `GrowList.run_eq_plain` — all runs of operations.
-/

namespace PooledBuffers.GrowList

variable {α : Type} [Element α]

/-! ## Checks -/

omit [Element α] in
/-- The array is as long as the capacity says, and the elements are no more than fit. -/
def checkView (list : GrowList α) : Except Overrun Unit := do
  demand list.capacity list.block.capacity
  demand list.length list.capacity

/-- The new memory is there and takes the elements, and the old one can go back after that. -/
def checkRelocate (list : GrowList α) (capacity : Nat) (pool : Pool α) : Except Overrun Unit := do
  pool.checkRent capacity
  list.checkView
  demand list.length capacity
  (pool.rent capacity).2.checkReturn list.block.lease

def checkReserve (list : GrowList α) (capacity : Nat) (pool : Pool α) : Except Overrun Unit :=
  if capacity ≤ list.capacity ∨ capacity ≤ list.block.capacity then .ok ()
  else list.checkRelocate capacity pool

/-- One element more can be counted, and lies in memory once there is room for it. -/
def checkAdd (list : GrowList α) (value : α) (pool : Pool α) : Except Overrun Unit := do
  if list.length = list.capacity then
    list.checkReserve (Size.mul (max list.capacity 1) 2) pool
  demand (list.length + 1) Size.top
  (list.add value pool).1.checkView

def checkAddRange (list : GrowList α) (run : Array α) (pool : Pool α) : Except Overrun Unit :=
  if run.isEmpty then .ok ()
  else do
    demand (list.length + run.size) Size.top
    list.checkReserve (list.length + run.size) pool
    (list.addRange run pool).1.checkView

/-- Checks the bounds that an operation relies on. -/
def check (list : GrowList α) (pool : Pool α) : Action α → Except Overrun Unit
  | .add value => list.checkAdd value pool
  | .addRange run => list.checkAddRange run pool
  | .addEach run =>
    Machine.checkEach (fun state value => state.1.checkAdd value state.2)
      (fun state value => state.1.add value state.2) (list, pool) run.toList
  | .reserve capacity => list.checkReserve capacity pool
  | .trim =>
    if list.capacity ≤ list.length then .ok () else list.checkRelocate list.length pool
  | .dispose => pool.checkReturn list.block.lease
  | .look _ | .get _ | .set .. | .store .. | .indexOf _ | .contains _ | .clear | .assign _
  | .read => list.checkView

namespace Represents

variable {list : GrowList α} {pool : Pool α} {items : List α}

omit [Element α] in
theorem checkView_eq_ok {state : GrowList α × Pool α} (represents : Represents state items) :
    state.1.checkView = .ok () := by
  rw [checkView, check_bind (demand_eq_ok represents.capacity_le)]
  exact demand_eq_ok represents.length_le

theorem checkRelocate_eq_ok (represents : Represents (list, pool) items) {capacity : Nat}
    (enough : list.length ≤ capacity) : list.checkRelocate capacity pool = .ok () := by
  have held : pool.Backs list.block.lease := represents.backs
  rw [checkRelocate, check_bind (held.checkRent_eq_ok capacity),
    check_bind represents.checkView_eq_ok, check_bind (demand_eq_ok enough)]
  exact (held.still capacity).checkReturn_eq_ok

theorem checkReserve_eq_ok (represents : Represents (list, pool) items) (capacity : Nat) :
    list.checkReserve capacity pool = .ok () := by
  have inside : list.length ≤ list.capacity := represents.length_le
  unfold checkReserve
  split
  · rfl
  · exact represents.checkRelocate_eq_ok (by omega)

theorem checkAdd_eq_ok (represents : Represents (list, pool) items) (value : α)
    (short : (items ++ [value]).length ≤ Size.top) : list.checkAdd value pool = .ok () := by
  have length : list.length = items.length := represents.length_eq
  have counted : list.length + 1 ≤ Size.top := by
    rw [List.length_append, List.length_singleton] at short
    exact length.symm ▸ short
  have added := (represents.add value short).checkView_eq_ok
  unfold checkAdd
  split
  · rw [check_bind (represents.checkReserve_eq_ok _), check_bind (demand_eq_ok counted)]
    exact added
  · rw [check_bind (demand_eq_ok counted)]
    exact added

theorem checkAddRange_eq_ok (represents : Represents (list, pool) items) (run : Array α)
    (short : (items ++ run.toList).length ≤ Size.top) : list.checkAddRange run pool = .ok () := by
  have length : list.length = items.length := represents.length_eq
  rw [List.length_append, @Array.length_toList _ run] at short
  unfold checkAddRange
  split
  · rfl
  · rw [check_bind (demand_eq_ok (length.symm ▸ short)),
      check_bind (represents.checkReserve_eq_ok _)]
    exact (represents.addRange run).checkView_eq_ok

end Represents

/-! ## Plain lists -/

variable [BEq α]

/-- A list with its pool, as it answers operations. -/
def machine : Machine (GrowList α × Pool α) (Action α) (Reply α) :=
  fun state action => state.1.perform state.2 action

omit [Element α] in
/-- A plain list under the same operations. What they do with memory does not concern it. -/
def plain : Machine (List α) (Action α) (Reply α)
  | items, .add value => (.done, items ++ [value])
  | items, .addRange run => (.done, items ++ run.toList)
  | items, .addEach run => (.done, items ++ run.toList)
  | items, .look index => (.element items[index]?, items)
  | items, .get index =>
    (.ofIndexed (if h : index < items.length then .ok items[index]
      else .error ⟨.cells, index, items.length⟩), items)
  | items, .set index value => (.flag (index < items.length), items.set index value)
  | items, .store index value =>
    (if index < items.length then .done else .outside ⟨.cells, index, items.length⟩,
      items.set index value)
  | items, .indexOf value => (.place (items.findIdx? (· == value)), items)
  | items, .contains value => (.flag (items.any (· == value)), items)
  | items, .reserve _ => (.done, items)
  | items, .trim => (.done, items)
  | _, .clear => (.done, [])
  | _, .dispose => (.done, [])
  | items, .assign run => (.done, overlay items run.toList)
  | items, .read => (.run items.toArray, items)

variable {list : GrowList α} {pool : Pool α} {items : List α}

theorem Represents.perform (represents : Represents (list, pool) items) (action : Action α)
    (countable : plain.Countable items action) :
    (list.perform pool action).1 = (plain items action).1 ∧
      Represents (list.perform pool action).2 (plain items action).2 := by
  have views := represents.views
  have length : list.length = items.length := represents.length_eq
  cases action with
  | add value => exact ⟨rfl, represents.add value countable⟩
  | addRange run => exact ⟨rfl, represents.addRange run⟩
  | addEach run => exact ⟨rfl, represents.addEach run countable⟩
  | look index => exact ⟨congrArg Reply.element (views.get?_eq index), represents⟩
  | get index => exact ⟨congrArg Reply.ofIndexed (views.get_eq index), represents⟩
  | set index value =>
    simp only [GrowList.perform, plain]
    rcases represents.set? index value with ⟨outside, none⟩ | ⟨next, inside, some, stored⟩
    · rw [none, List.set_eq_of_length_le (length ▸ outside), decide_eq_false (by omega)]
      exact ⟨rfl, represents⟩
    · rw [some, decide_eq_true (length ▸ inside)]
      exact ⟨rfl, stored⟩
  | store index value =>
    simp only [GrowList.perform, plain]
    rcases represents.set? index value with ⟨outside, none⟩ | ⟨next, inside, some, stored⟩
    · rw [none, List.set_eq_of_length_le (length ▸ outside), if_neg (by omega), length]
      exact ⟨rfl, represents⟩
    · rw [some, if_pos (length ▸ inside)]
      exact ⟨rfl, stored⟩
  | indexOf value => exact ⟨congrArg Reply.place (views.indexOf?_eq value), represents⟩
  | contains value => exact ⟨congrArg Reply.flag (represents.contains_eq value), represents⟩
  | reserve capacity => exact ⟨rfl, represents.reserve capacity⟩
  | trim => exact ⟨rfl, represents.trim⟩
  | clear => exact ⟨rfl, represents.clear⟩
  | dispose => exact ⟨rfl, represents.dispose⟩
  | assign run => exact ⟨rfl, represents.assign run⟩
  | read =>
    refine ⟨congrArg Reply.run ?_, represents⟩
    rw [← views.toArray_eq]

theorem Represents.check_eq_ok (represents : Represents (list, pool) items) (action : Action α)
    (countable : plain.Countable items action) : list.check pool action = .ok () := by
  have inside : list.length ≤ list.capacity := represents.length_le
  cases action with
  | add value => exact represents.checkAdd_eq_ok value countable
  | addRange run => exact represents.checkAddRange_eq_ok run countable
  | addEach run =>
    have short : (items ++ run.toList).length ≤ Size.top := countable
    rw [← foldl_snoc] at short
    refine Machine.checkEach_eq_ok Represents length_le_snoc
      (fun value held short => ⟨?_, held.add value short⟩) run.toList represents short
    exact held.checkAdd_eq_ok value short
  | reserve capacity => exact represents.checkReserve_eq_ok capacity
  | trim =>
    simp only [check]
    split
    · rfl
    · exact represents.checkRelocate_eq_ok (Nat.le_refl _)
  | dispose => exact represents.backs.checkReturn_eq_ok
  | look _ | get _ | set _ _ | store _ _ | indexOf _ | contains _ | clear | assign _ | read =>
    exact represents.checkView_eq_ok

/-- A growing list does as a plain list does, one operation after another. -/
theorem refines_plain : Machine.Refines (@machine α _ _) plain Represents plain.Countable where
  answer represents countable := (represents.perform _ countable).1
  next represents countable := (represents.perform _ countable).2

/-! ## Runs -/

/-- A growing list is a plain list: of whatever configuration the pool is and in whatever state its
users left it, with room for however many elements to begin with, a list answers every run of
operations as a plain list does, as long as its elements can be counted, and its views then show
the elements of the plain one. What equality of elements is does not matter. The elements are no
more than fit, and as many as fit the array has cells; making room keeps the elements and never
takes room away; giving up room keeps them and leaves none to spare. No operation of the run
reaches outside. -/
theorem run_eq_plain (pool : Pool α) (reachable : pool.Reachable)
    (small : pool.config.maxArrayLength ≤ Size.top) (capacity : Nat) (actions : List (Action α))
    (countable : plain.Along plain.Countable [] actions) :
    let first := withCapacity pool capacity
    let last := first.1.run first.2 actions
    let items := (plain.play [] actions).2
    (machine.play first actions).1 = (plain.play [] actions).1 ∧
    last.1.Views items ∧
    last.1.length ≤ last.1.capacity ∧ last.1.capacity ≤ last.1.block.capacity ∧
    (∀ more, (last.1.reserve more last.2).1.Views items ∧
      max more last.1.capacity ≤ (last.1.reserve more last.2).1.capacity) ∧
    ((last.1.trim last.2).1.Views items ∧ (last.1.trim last.2).1.capacity = last.1.length) ∧
    pool.checkRent capacity = .ok () ∧
    machine.Along (fun state action => state.1.check state.2 action = .ok ()) first actions := by
  intro first last items
  have backs : pool.Backs none := ⟨reachable.sound, small, nofun, nofun⟩
  have begins : Represents first [] := Represents.withCapacity backs capacity
  obtain ⟨answers, ends⟩ := refines_plain.play actions begins countable
  have represents : Represents last items := by
    rw [Machine.play_state] at ends
    exact ends
  refine ⟨answers, represents.views, represents.length_le, represents.capacity_le, ?_, ?_,
    backs.checkRent_eq_ok capacity, ?_⟩
  · intro more
    refine ⟨(represents.reserve more).views, Nat.max_le.2 ⟨?_, ?_⟩⟩
    · exact last.1.le_capacity_reserve more last.2
    · exact last.1.capacity_le_reserve more last.2
  · exact ⟨represents.trim.views, capacity_trim represents.length_le last.2⟩
  · exact refines_plain.along (fun held counted => held.check_eq_ok _ counted) actions begins
      countable

/-- A list without room grows, gives up room, loses its memory and is used again. -/
theorem run_eq_plain_regrown :
    let pool : Pool Binary64 := .standard
    let nan : Binary64 := ⟨0x7FF8000000000000⟩
    let actions : List (Action Binary64) := [.add nan, .addRange #[⟨1⟩, ⟨2⟩], .trim, .add ⟨3⟩,
      .dispose, .addEach #[nan, ⟨4⟩, nan], .reserve 40, .store 1 ⟨5⟩, .indexOf nan]
    pool.Reachable ∧ pool.config.maxArrayLength ≤ Size.top ∧
      plain.Along plain.Countable [] actions ∧
      ((withCapacity pool 0).1.run (withCapacity pool 0).2 actions).1.toArray.toList =
        [nan, ⟨5⟩, nan] := by
  intro pool nan actions
  have small : pool.config.maxArrayLength ≤ Size.top := by decide
  have countable : plain.Along plain.Countable [] actions := by decide
  obtain ⟨-, views, -⟩ := run_eq_plain pool Pool.reachable_standard small 0 actions countable
  exact ⟨Pool.reachable_standard, small, countable, views.toArray_eq⟩

end PooledBuffers.GrowList
