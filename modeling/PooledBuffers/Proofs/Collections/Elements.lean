import PooledBuffers.Proofs.Collections.Capacity
import PooledBuffers.Proofs.Machine
import PooledBuffers.Proofs.Pool.Checks
import PooledBuffers.Proofs.Sequences

/-!
# The elements of a growing list

A growing list keeps three sizes: how many elements there are, how many fit, and how many cells the
array has. They are in this order after every operation, and the elements are the first cells, so
that making room moves them or leaves them and is seen in the capacity only.

* `GrowList.Represents` — a list that holds given elements, with its pool;
* `GrowList.Represents.views` — what its views show;
* `GrowList.Represents.reserve`, `GrowList.Represents.trim` — the same elements with another
  capacity;
* `GrowList.Represents.add`, `GrowList.Represents.addRange`, … — what the changes leave.
-/

namespace PooledBuffers.GrowList

variable {α : Type}

/-- A list with its pool holds these elements. -/
structure Represents (state : GrowList α × Pool α) (items : List α) : Prop where
  /-- The memory can go back to the pool. -/
  backs : state.2.Backs state.1.block.lease
  length_eq : state.1.length = items.length
  length_le : state.1.length ≤ state.1.capacity
  capacity_le : state.1.capacity ≤ state.1.block.capacity
  begins : items <+: state.1.block.physical.toList

variable {list : GrowList α} {pool : Pool α} {items : List α}

/-! ## Views -/

/-- What the views of a list show when it holds some elements. -/
structure Views [BEq α] (list : GrowList α) (items : List α) : Prop where
  toArray_eq : list.toArray.toList = items
  length_eq : list.length = items.length
  isEmpty_iff : list.isEmpty = true ↔ items = []
  get?_eq : ∀ index, list.get? index = items[index]?
  get_eq : ∀ index, list.get index =
    if h : index < items.length then .ok items[index] else .error ⟨.cells, index, items.length⟩
  /-- The place of the first equal element. -/
  indexOf?_eq : ∀ value, list.indexOf? value = items.findIdx? (· == value)
  contains_iff : ∀ value, list.contains value = true ↔ ∃ item ∈ items, (item == value) = true

namespace Represents

theorem toArray_eq (represents : Represents (list, pool) items) :
    list.toArray.toList = items := by
  have inside : list.length ≤ list.block.length := represents.length_le
  have shown : min list.length list.block.length = items.length :=
    (Nat.min_eq_left inside).trans represents.length_eq
  rw [toArray, Block.slice, shown]
  exact Storage.toList_extract_of_begins represents.begins

theorem get?_eq (represents : Represents (list, pool) items) (index : Nat) :
    list.get? index = items[index]? := by
  rw [get?, ← Array.getElem?_toList, represents.toArray_eq]

variable [BEq α]

theorem indexOf?_eq (represents : Represents (list, pool) items) (value : α) :
    list.indexOf? value = items.findIdx? (· == value) := by
  rw [indexOf?, ← List.findIdx?_toArray, ← represents.toArray_eq]

theorem contains_eq (represents : Represents (list, pool) items) (value : α) :
    list.contains value = items.any (· == value) := by
  rw [contains, ← Array.any_toList, represents.toArray_eq]

theorem views (represents : Represents (list, pool) items) : list.Views items where
  toArray_eq := represents.toArray_eq
  length_eq := represents.length_eq
  isEmpty_iff := by
    have length : list.length = items.length := represents.length_eq
    rw [isEmpty, decide_eq_true_iff, length, List.length_eq_zero_iff]
  get?_eq := represents.get?_eq
  get_eq index := by
    have length : list.length = items.length := represents.length_eq
    unfold get
    rw [represents.get?_eq, length]
    by_cases inside : index < items.length
    · rw [List.getElem?_eq_getElem inside, dif_pos inside]
    · rw [List.getElem?_eq_none (Nat.le_of_not_lt inside), dif_neg inside]
  indexOf?_eq := represents.indexOf?_eq
  contains_iff value := by
    rw [represents.contains_eq, List.any_eq_true]

end Represents

/-! ## Changes in place -/

namespace Represents

/-- Other elements in the same memory, for which there is room. -/
theorem edit {state : GrowList α × Pool α} (represents : Represents state items)
    {f : Array α → Array α} (same : ∀ cells, (f cells).size = cells.size) {changed : List α}
    {length : Nat} (length_eq : length = changed.length) (room : length ≤ state.1.capacity)
    (begins : changed <+: (f state.1.block.physical).toList) :
    Represents ({ block := state.1.block.edit f, length := length }, state.2) changed := by
  have physical : (state.1.block.edit f).physical = f state.1.block.physical :=
    Block.physical_edit _ (Array.eq_empty_of_size_eq_zero (same #[]))
  refine ⟨Block.backs_edit represents.backs same, length_eq, ?_, ?_, ?_⟩
  · show length ≤ (state.1.block.edit f).length
    rw [Block.length_edit]
    exact room
  · show (state.1.block.edit f).length ≤ (state.1.block.edit f).physical.size
    rw [Block.length_edit, physical, same]
    exact represents.capacity_le
  · show changed <+: (state.1.block.edit f).physical.toList
    rw [physical]
    exact begins

/-- A run behind the elements. -/
theorem put {state : GrowList α × Pool α} (represents : Represents state items) (run : Array α)
    (room : state.1.length + run.size ≤ state.1.capacity) :
    Represents ({ block := state.1.block.edit (Storage.overwrite · state.1.length run)
                  length := state.1.length + run.size }, state.2) (items ++ run.toList) := by
  have length := represents.length_eq
  have enough : items.length + run.size ≤ state.1.block.physical.size :=
    Nat.le_trans (length ▸ room) represents.capacity_le
  refine represents.edit (fun _ => Storage.size_overwrite _ _ _) ?_ room ?_
  · rw [List.length_append, length, @Array.length_toList _ run]
  · rw [length]
    exact Storage.begins_append represents.begins run enough

theorem set? (represents : Represents (list, pool) items) (index : Nat) (value : α) :
    (list.length ≤ index ∧ list.set? index value = none) ∨
      ∃ next, index < list.length ∧ list.set? index value = some next ∧
        Represents (next, pool) (items.set index value) := by
  unfold GrowList.set?
  split
  · rename_i inside
    refine .inr ⟨_, inside, rfl, ?_⟩
    refine represents.edit (fun _ => Array.size_setIfInBounds) ?_ represents.length_le ?_
    · rw [List.length_set]
      exact represents.length_eq
    · exact Storage.begins_set represents.begins index value
  · rename_i outside
    exact .inl ⟨Nat.le_of_not_lt outside, rfl⟩

theorem assign (represents : Represents (list, pool) items) (run : Array α) :
    Represents (list.assign run, pool) (overlay items run.toList) := by
  have length : list.length = items.length := represents.length_eq
  refine represents.edit (fun _ => Storage.size_overwrite _ _ _) ?_ represents.length_le ?_
  · rw [length_overlay]
    exact length
  · rw [length]
    exact Storage.begins_overlay represents.begins run

variable [Element α]

theorem clear (represents : Represents (list, pool) items) : Represents (list.clear, pool) [] :=
  represents.edit (fun _ => Storage.size_blankFirst _ _) rfl (Nat.zero_le _) ⟨_, rfl⟩

/-! ## Room -/

theorem withCapacity {held : Option (Lease α)} (backs : pool.Backs held) (capacity : Nat) :
    Represents (GrowList.withCapacity pool capacity) [] where
  backs := Block.backs_rent backs capacity true
  length_eq := rfl
  length_le := Nat.zero_le _
  capacity_le := Block.length_le_rent backs.sound capacity true
  begins := ⟨_, rfl⟩

/-- The elements come along to new memory that is long enough. -/
theorem relocate (represents : Represents (list, pool) items) {capacity : Nat}
    (enough : list.length ≤ capacity) : Represents (list.relocate capacity pool) items := by
  have length : list.length = items.length := represents.length_eq
  have held : pool.Backs list.block.lease := represents.backs
  have rented := Block.backs_rent held capacity true
  have still : (Block.rent pool capacity true).2.Backs list.block.lease := held.still capacity
  have long := Block.length_le_rent held.sound capacity true
  have size : list.toArray.size = items.length := by
    rw [← Array.length_toList, represents.toArray_eq]
  have moved : Represents ({ block := (Block.rent pool capacity true).1, length := 0 },
      (list.block.dispose (Block.rent pool capacity true).2).2) [] :=
    ⟨Block.backs_dispose still rented, rfl, Nat.zero_le _, long, ⟨_, rfl⟩⟩
  refine moved.edit (fun _ => Storage.size_overwrite _ _ _) length enough ?_
  have copied := Storage.begins_run (Block.rent pool capacity true).1.physical list.toArray
    (by omega)
  rw [represents.toArray_eq] at copied
  exact copied

theorem reserve (represents : Represents (list, pool) items) (capacity : Nat) :
    Represents (list.reserve capacity pool) items := by
  have inside : list.length ≤ list.capacity := represents.length_le
  unfold GrowList.reserve
  split
  · exact represents
  rename_i more
  split
  · rename_i block resized
    unfold Block.resize? at resized
    split at resized
    · cases resized
    · rename_i long
      cases resized
      -- The array has the cells, the list takes them up.
      exact ⟨represents.backs, represents.length_eq, by show list.length ≤ capacity; omega,
        Nat.le_of_not_lt long, represents.begins⟩
  · exact represents.relocate (by omega)

theorem trim (represents : Represents (list, pool) items) :
    Represents (list.trim pool) items := by
  unfold GrowList.trim
  split
  · exact represents
  · exact represents.relocate (Nat.le_refl _)

/-! ## Growth -/

theorem add (represents : Represents (list, pool) items) (value : α)
    (short : (items ++ [value]).length ≤ Size.top) :
    Represents (list.add value pool) (items ++ [value]) := by
  rw [List.length_append, List.length_singleton] at short
  have length : list.length = items.length := represents.length_eq
  have inside : list.length ≤ list.capacity := represents.length_le
  unfold GrowList.add
  by_cases full : list.length = list.capacity
  · rw [if_pos full]
    have wanted := list.le_capacity_reserve (Size.mul (max list.capacity 1) 2) pool
    have same := list.length_reserve (Size.mul (max list.capacity 1) 2) pool
    refine (represents.reserve (Size.mul (max list.capacity 1) 2)).put #[value] ?_
    rw [same]
    -- A doubled capacity is longer, since it is not yet the largest size.
    unfold Size.mul at wanted ⊢
    show list.length + 1 ≤ _
    omega
  · rw [if_neg full]
    exact represents.put #[value] (Nat.lt_of_le_of_ne inside full)

theorem addRange (represents : Represents (list, pool) items) (run : Array α) :
    Represents (list.addRange run pool) (items ++ run.toList) := by
  unfold GrowList.addRange
  split
  · rename_i nothing
    rw [Array.isEmpty_iff.1 nothing, Array.toList_empty, List.append_nil]
    exact represents
  · have wanted := list.le_capacity_reserve (list.length + run.size) pool
    refine (represents.reserve (list.length + run.size)).put run ?_
    rw [list.length_reserve]
    exact wanted

theorem addEach (represents : Represents (list, pool) items) (run : Array α)
    (short : (items ++ run.toList).length ≤ Size.top) :
    Represents (list.addEach run pool) (items ++ run.toList) := by
  rw [← foldl_snoc] at short ⊢
  rw [GrowList.addEach, ← Array.foldl_toList]
  exact Machine.foldl_related Represents length_le_snoc
    (fun value held short => held.add value short) run.toList represents short

/-- A list that gave its memory back is one without elements and without room. -/
theorem dispose (represents : Represents (list, pool) items) :
    Represents (list.dispose pool) [] := by
  obtain ⟨⟨lease, capacity⟩, length⟩ := list
  cases lease with
  | none => exact ⟨represents.backs.nothing, rfl, Nat.zero_le _, Nat.zero_le _, ⟨_, rfl⟩⟩
  | some lease =>
    have back := represents.backs.giveBack represents.backs.nothing
    exact ⟨back, rfl, Nat.zero_le _, Nat.zero_le _, ⟨_, rfl⟩⟩

end Represents

end PooledBuffers.GrowList
