import PooledBuffers.Collections.Action
import PooledBuffers.Proofs.Writer.Memory

/-!
# The capacity of a collection

How much room an operation makes, whatever the elements are.

* `GrowList.le_capacity_reserve`, `GrowList.capacity_le_reserve` — a list has the room that it
  reserves and loses none by it;
* `Builder.le_doubledTo`, `Builder.capacity_grow` — a builder doubles until a run fits.
-/

namespace PooledBuffers

variable {α : Type}

/-! ## Growing lists -/

namespace GrowList

variable [Element α]

/-- What a list takes up has the capacity that was asked for. -/
theorem capacity_relocate (list : GrowList α) (capacity : Nat) (pool : Pool α) :
    (list.relocate capacity pool).1.capacity = capacity := Block.length_edit _ _

theorem le_capacity_reserve (list : GrowList α) (capacity : Nat) (pool : Pool α) :
    capacity ≤ (list.reserve capacity pool).1.capacity := by
  unfold reserve
  split
  · assumption
  split
  · rename_i block resized
    unfold Block.resize? at resized
    split at resized
    · cases resized
    · cases resized
      exact Nat.le_refl _
  · exact Nat.le_of_eq (list.capacity_relocate capacity pool).symm

theorem length_reserve (list : GrowList α) (capacity : Nat) (pool : Pool α) :
    (list.reserve capacity pool).1.length = list.length := by
  unfold reserve
  split
  · rfl
  split
  · rfl
  · rfl

/-- No room is lost when more is made. -/
theorem capacity_le_reserve (list : GrowList α) (capacity : Nat) (pool : Pool α) :
    list.capacity ≤ (list.reserve capacity pool).1.capacity := by
  by_cases enough : capacity ≤ list.capacity
  · have same : list.reserve capacity pool = (list, pool) := if_pos enough
    exact Nat.le_of_eq (congrArg (fun state => state.1.capacity) same).symm
  · exact Nat.le_trans (Nat.le_of_not_le enough) (list.le_capacity_reserve capacity pool)

theorem capacity_trim {list : GrowList α} (room : list.length ≤ list.capacity) (pool : Pool α) :
    (list.trim pool).1.capacity = list.length := by
  unfold trim
  split
  · rename_i tight
    exact Nat.le_antisymm tight room
  · exact list.capacity_relocate list.length pool

end GrowList

/-! ## Builders -/

namespace Builder

theorem capacity_edit (builder : Builder α) {f : Array α → Array α}
    (same : ∀ cells, (f cells).size = cells.size) :
    (builder.edit f).capacity = builder.capacity := by
  obtain ⟨lease, minCapacity, length⟩ := builder
  cases lease with
  | none => rfl
  | some lease => exact same lease.cells

/-- An edit leaves the length as it is. -/
theorem with_length_edit (builder : Builder α) (f : Array α → Array α) :
    { builder.edit f with length := builder.length } = builder.edit f := by
  obtain ⟨lease, minCapacity, length⟩ := builder
  cases lease with
  | none => rfl
  | some lease => rfl

/-- The size that doubling starts from is not lost. -/
theorem capacity_le_doubledTo (required capacity : Nat) :
    capacity ≤ doubledTo required capacity := by
  fun_induction doubledTo required capacity with
  | case1 capacity short ih => exact Nat.le_trans (Nat.le_of_lt short.2) ih
  | case2 capacity long => exact Nat.le_refl _

/-- Doubling reaches every size but from nothing. -/
theorem le_doubledTo (required capacity : Nat) (positive : 0 < capacity)
    (small : required ≤ Size.top) : required ≤ doubledTo required capacity := by
  fun_induction doubledTo required capacity with
  | case1 capacity short ih =>
    exact ih (by omega)
  | case2 capacity long =>
    unfold Size.mul at long
    omega

variable [Element α] {pool : Pool α}

theorem capacity_grow (sound : pool.Sound) (builder : Builder α) (requested : Nat) :
    max requested builder.minCapacity ≤ (builder.grow requested pool).1.capacity := by
  have enough := Pool.le_size_rent sound (max requested builder.minCapacity)
  exact Nat.le_trans enough (Nat.le_of_eq (Storage.size_overwrite _ _ _).symm)

end Builder

end PooledBuffers
