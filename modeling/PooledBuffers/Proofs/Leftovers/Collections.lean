import PooledBuffers.Proofs.Collections.Capacity
import PooledBuffers.Proofs.Leftovers.Blocks

/-!
# Collections without leftovers

A list, a list of distinct elements and a builder show their elements and no other cell, so that
leftovers behind the elements do no harm: neither where a list takes up what its array has to spare,
nor where a builder rents an array as it is. What carries this is that there is always room for the
elements, except in arrays longer than any size.

* `GrowList.Alike`, `DistinctList.Alike`, `Builder.Alike` — collections of the same elements;
* `GrowList.Alike.perform`, `DistinctList.Alike.perform`, `Builder.Alike.perform` — the same
  answers, and still alike.
-/

namespace PooledBuffers

open Storage (Agree Respects)

variable {α : Type} {pool pool' : Pool α}

/-! ## Growing lists -/

/-- Lists of the same elements, for which there is room. -/
structure GrowList.Alike (list other : GrowList α) : Prop where
  block : list.block.Alike list.length other.block
  length : list.length = other.length
  room : list.length ≤ list.capacity ∨ Size.top ≤ list.capacity

namespace GrowList

variable {list other : GrowList α}

namespace Alike

theorem capacity (alike : list.Alike other) : list.capacity = other.capacity := alike.block.length

theorem toArray (alike : list.Alike other) : list.toArray = other.toArray := by
  rw [GrowList.toArray, GrowList.toArray, ← alike.length]
  exact alike.block.slice (Nat.min_le_left _ _) 0

theorem get? (alike : list.Alike other) (index : Nat) : list.get? index = other.get? index := by
  rw [GrowList.get?, GrowList.get?, alike.toArray]

theorem get (alike : list.Alike other) (index : Nat) : list.get index = other.get index := by
  simp only [GrowList.get, alike.get?, alike.length]

theorem indexOf? [BEq α] (alike : list.Alike other) (value : α) :
    list.indexOf? value = other.indexOf? value := by
  rw [GrowList.indexOf?, GrowList.indexOf?, alike.toArray]

theorem contains [BEq α] (alike : list.Alike other) (value : α) :
    list.contains value = other.contains value := by
  rw [GrowList.contains, GrowList.contains, alike.toArray]

/-- An edit of the elements. -/
theorem edit (alike : list.Alike other) {f g : Array α → Array α}
    (respects : Respects list.length list.length f g) {length : Nat} (same : list.length = length) :
    (⟨list.block.edit f, list.length⟩ : GrowList α).Alike ⟨other.block.edit g, length⟩ := by
  refine ⟨alike.block.edit respects, same, ?_⟩
  show list.length ≤ (list.block.edit f).length ∨ Size.top ≤ (list.block.edit f).length
  rw [Block.length_edit]
  exact alike.room

/-- A run behind the elements, where there is room for it. -/
theorem put (alike : list.Alike other) (run : Array α)
    (room : list.length + run.size ≤ list.capacity ∨ Size.top ≤ list.capacity) :
    (⟨list.block.edit (Storage.overwrite · list.length run), list.length + run.size⟩ :
        GrowList α).Alike
      ⟨other.block.edit (Storage.overwrite · other.length run), other.length + run.size⟩ := by
  refine ⟨alike.block.edit ?_, congrArg (· + run.size) alike.length, ?_⟩
  · exact Storage.respects_extend _ alike.length (Nat.le_refl _) run (Nat.le_refl _)
  · show _ ≤ (list.block.edit _).length ∨ _ ≤ (list.block.edit _).length
    rw [Block.length_edit]
    exact room

theorem set? (alike : list.Alike other) (index : Nat) (value : α) :
    Option.Rel Alike (list.set? index value) (other.set? index value) := by
  unfold GrowList.set?
  rw [← alike.length]
  split
  · exact .some (alike.edit (Storage.respects_set rfl value) rfl)
  · exact .none

theorem assign (alike : list.Alike other) (run : Array α) :
    (list.assign run).Alike (other.assign run) := by
  rw [GrowList.assign, GrowList.assign, ← alike.length]
  exact alike.edit (Storage.respects_overwrite rfl _) rfl

end Alike

variable [Element α]

theorem alike_withCapacity (pools : pool.Alike pool') (capacity : Nat) :
    OnAlike Alike (withCapacity pool capacity) (withCapacity pool' capacity) := by
  obtain ⟨blocks, after⟩ := Block.alike_rent_blank pools capacity
  exact ⟨⟨blocks.mono (Nat.zero_le _), rfl, .inl (Nat.zero_le _)⟩, after⟩

namespace Alike

theorem relocate (alike : list.Alike other) (pools : pool.Alike pool') {capacity : Nat}
    (enough : list.length ≤ capacity) :
    OnAlike Alike (list.relocate capacity pool) (other.relocate capacity pool') := by
  obtain ⟨blocks, middle⟩ := Block.alike_rent_blank pools capacity
  obtain ⟨-, last⟩ := alike.block.dispose middle 0
  have room := list.capacity_relocate capacity pool
  refine ⟨⟨?_, alike.length, .inl (room.symm ▸ enough)⟩, last⟩
  simp only [GrowList.relocate, ← alike.toArray]
  exact (blocks.edit (Storage.respects_overwrite rfl _)).mono enough

/-- A list that takes up what its array has to spare shows none of it: it does not get longer. -/
theorem reserve (alike : list.Alike other) (pools : pool.Alike pool') (capacity : Nat)
    (enough : list.capacity < capacity → list.length ≤ capacity) :
    OnAlike Alike (list.reserve capacity pool) (other.reserve capacity pool') := by
  unfold GrowList.reserve Block.resize?
  rw [← alike.capacity, ← alike.block.capacity]
  by_cases fits : capacity ≤ list.capacity
  · rw [if_pos fits, if_pos fits]
    exact ⟨alike, pools⟩
  rw [if_neg fits, if_neg fits]
  have enough := enough (Nat.lt_of_not_le fits)
  by_cases short : list.block.capacity < capacity
  · simp only [if_pos short]
    exact alike.relocate pools enough
  · simp only [if_neg short]
    exact ⟨⟨alike.block.with_length capacity, alike.length, .inl enough⟩, pools⟩

theorem trim (alike : list.Alike other) (pools : pool.Alike pool') :
    OnAlike Alike (list.trim pool) (other.trim pool') := by
  unfold GrowList.trim
  rw [← alike.capacity, ← alike.length]
  split
  · exact ⟨alike, pools⟩
  · exact alike.relocate pools (Nat.le_refl _)

theorem add (alike : list.Alike other) (pools : pool.Alike pool') (value : α) :
    OnAlike Alike (list.add value pool) (other.add value pool') := by
  unfold GrowList.add
  rw [← alike.length, ← alike.capacity]
  by_cases full : list.length = list.capacity
  · rw [if_pos full, if_pos full]
    have wanted := list.le_capacity_reserve (Size.mul (max list.capacity 1) 2) pool
    obtain ⟨grown, after⟩ := alike.reserve pools (Size.mul (max list.capacity 1) 2) (by omega)
    have length := list.length_reserve (Size.mul (max list.capacity 1) 2) pool
    refine ⟨grown.put #[value] ?_, after⟩
    rw [length, full]
    -- A doubled capacity is longer, or else it is the largest size.
    unfold Size.mul at wanted ⊢
    show list.capacity + 1 ≤ _ ∨ _
    omega
  · rw [if_neg full, if_neg full]
    refine ⟨alike.put #[value] ?_, pools⟩
    have room := alike.room
    show list.length + 1 ≤ _ ∨ _
    omega

theorem addRange (alike : list.Alike other) (pools : pool.Alike pool') (run : Array α) :
    OnAlike Alike (list.addRange run pool) (other.addRange run pool') := by
  unfold GrowList.addRange
  rw [← alike.length]
  split
  · exact ⟨alike, pools⟩
  · have wanted := list.le_capacity_reserve (list.length + run.size) pool
    have length := list.length_reserve (list.length + run.size) pool
    obtain ⟨grown, after⟩ := alike.reserve pools (list.length + run.size) fun _ =>
      Nat.le_add_right _ _
    refine ⟨grown.put run (.inl ?_), after⟩
    rw [length]
    exact wanted

theorem addEach (alike : list.Alike other) (pools : pool.Alike pool') (run : Array α) :
    OnAlike Alike (list.addEach run pool) (other.addEach run pool') :=
  Array.foldl_rel (r := OnAlike Alike) ⟨alike, pools⟩
    fun value _ _ _ both => both.object.add both.pool value

theorem clear (alike : list.Alike other) : list.clear.Alike other.clear := by
  refine ⟨?_, rfl, .inl (Nat.zero_le _)⟩
  simp only [GrowList.clear, Storage.blankFirst, ← alike.length]
  exact (alike.block.edit (Storage.respects_overwrite rfl _)).mono (Nat.zero_le _)

theorem dispose (alike : list.Alike other) (pools : pool.Alike pool') :
    OnAlike Alike (list.dispose pool) (other.dispose pool') := by
  obtain ⟨released, after⟩ := alike.block.dispose pools 0
  exact ⟨⟨released, rfl, .inl (Nat.zero_le _)⟩, after⟩

end Alike

theorem alike_ofRun (pools : pool.Alike pool') (run : Array α) :
    OnAlike Alike (ofRun pool run) (ofRun pool' run) :=
  have made := alike_withCapacity pools run.size
  made.object.addRange made.pool run

theorem alike_collect (pools : pool.Alike pool') (run : Array α) :
    OnAlike Alike (collect pool run) (collect pool' run) :=
  have made := alike_withCapacity pools run.size
  made.object.addEach made.pool run

/-- The one operation that takes a size as its user gives it. -/
def Action.Sized : Action α → Prop
  | .reserve capacity => capacity ≤ Size.top
  | _ => True

theorem Alike.perform [BEq α] (alike : list.Alike other) (pools : pool.Alike pool')
    {action : Action α} (sized : action.Sized) :
    SameAnswer Alike (list.perform pool action) (other.perform pool' action) := by
  cases action with
  | add value => exact ⟨rfl, alike.add pools value⟩
  | addRange run => exact ⟨rfl, alike.addRange pools run⟩
  | addEach run => exact ⟨rfl, alike.addEach pools run⟩
  | look index => exact ⟨congrArg Reply.element (alike.get? index), alike, pools⟩
  | get index => exact ⟨congrArg Reply.ofIndexed (alike.get index), alike, pools⟩
  | set index value =>
    have stored := alike.set? index value
    simp only [GrowList.perform]
    generalize list.set? index value = next at stored ⊢
    generalize other.set? index value = next' at stored ⊢
    cases stored with
    | none => exact ⟨rfl, alike, pools⟩
    | some stored => exact ⟨rfl, stored, pools⟩
  | store index value =>
    have stored := alike.set? index value
    simp only [GrowList.perform, ← alike.length]
    generalize list.set? index value = next at stored ⊢
    generalize other.set? index value = next' at stored ⊢
    cases stored with
    | none => exact ⟨rfl, alike, pools⟩
    | some stored => exact ⟨rfl, stored, pools⟩
  | indexOf value => exact ⟨congrArg Reply.place (alike.indexOf? value), alike, pools⟩
  | contains value => exact ⟨congrArg Reply.flag (alike.contains value), alike, pools⟩
  | reserve capacity =>
    have small : capacity ≤ Size.top := sized
    have room := alike.room
    exact ⟨rfl, alike.reserve pools _ (by omega)⟩
  | trim => exact ⟨rfl, alike.trim pools⟩
  | clear => exact ⟨rfl, alike.clear, pools⟩
  | dispose => exact ⟨rfl, alike.dispose pools⟩
  | assign run => exact ⟨rfl, alike.assign run, pools⟩
  | read => exact ⟨congrArg Reply.run alike.toArray, alike, pools⟩

end GrowList

/-! ## Lists of distinct elements -/

/-- Lists of the same distinct elements. -/
structure DistinctList.Alike (distinct other : DistinctList α) : Prop where
  list : distinct.list.Alike other.list

namespace DistinctList

variable {distinct other : DistinctList α}

namespace Alike

theorem toArray (alike : distinct.Alike other) : distinct.toArray = other.toArray :=
  alike.list.toArray

theorem contains [BEq α] (alike : distinct.Alike other) (value : α) :
    distinct.contains value = other.contains value := alike.list.contains value

theorem containsAny [BEq α] (alike : distinct.Alike other) (run : Array α) :
    distinct.containsAny run = other.containsAny run := by
  rw [DistinctList.containsAny, DistinctList.containsAny, alike.toArray]

variable [Element α]

theorem add [BEq α] (alike : distinct.Alike other) (pools : pool.Alike pool') (value : α) :
    SameAnswer Alike (distinct.add value pool) (other.add value pool') := by
  unfold DistinctList.add
  rw [← alike.contains]
  split
  · exact ⟨rfl, alike, pools⟩
  · obtain ⟨list, after⟩ := alike.list.add pools value
    exact ⟨rfl, ⟨list⟩, after⟩

theorem addRange [BEq α] (alike : distinct.Alike other) (pools : pool.Alike pool')
    (run : Array α) :
    SameAnswer Alike (distinct.addRange run pool) (other.addRange run pool') := by
  refine Array.foldl_rel (r := SameAnswer Alike) ⟨rfl, alike, pools⟩ ?_
  intro value _ state state' both
  obtain ⟨added, next⟩ := both.state.object.add both.state.pool value
  refine ⟨?_, next⟩
  simp only [added, both.answer]

theorem clear (alike : distinct.Alike other) : distinct.clear.Alike other.clear :=
  ⟨alike.list.clear⟩

theorem dispose (alike : distinct.Alike other) (pools : pool.Alike pool') :
    OnAlike Alike (distinct.dispose pool) (other.dispose pool') :=
  have released := alike.list.dispose pools
  ⟨⟨released.object⟩, released.pool⟩

end Alike

variable [Element α]

theorem alike_withCapacity (pools : pool.Alike pool') (capacity : Nat) :
    OnAlike Alike (withCapacity pool capacity) (withCapacity pool' capacity) :=
  have made := GrowList.alike_withCapacity pools capacity
  ⟨⟨made.object⟩, made.pool⟩

variable [BEq α]

theorem alike_ofRun (pools : pool.Alike pool') (run : Array α) :
    OnAlike Alike (ofRun pool run) (ofRun pool' run) :=
  have made := alike_withCapacity pools run.size
  (made.object.addRange made.pool run).state

theorem alike_collect (pools : pool.Alike pool') (run : Array α) :
    OnAlike Alike (collect pool run) (collect pool' run) :=
  have made := alike_withCapacity pools 0
  (made.object.addRange made.pool run).state

theorem Alike.perform (alike : distinct.Alike other) (pools : pool.Alike pool')
    (action : Action α) :
    SameAnswer Alike (distinct.perform pool action) (other.perform pool' action) := by
  cases action with
  | add value =>
    obtain ⟨added, both⟩ := alike.add pools value
    exact ⟨congrArg Reply.flag added, both⟩
  | addRange run =>
    obtain ⟨count, both⟩ := alike.addRange pools run
    exact ⟨congrArg Reply.count count, both⟩
  | addEach run => exact ⟨rfl, (alike.addRange pools run).state⟩
  | contains value => exact ⟨congrArg Reply.flag (alike.contains value), alike, pools⟩
  | containsAny run => exact ⟨congrArg Reply.flag (alike.containsAny run), alike, pools⟩
  | look index => exact ⟨congrArg Reply.element (alike.list.get? index), alike, pools⟩
  | get index => exact ⟨congrArg Reply.ofIndexed (alike.list.get index), alike, pools⟩
  | clear => exact ⟨rfl, alike.clear, pools⟩
  | dispose => exact ⟨rfl, alike.dispose pools⟩
  | read => exact ⟨congrArg Reply.run alike.toArray, alike, pools⟩

end DistinctList

/-! ## Builders -/

/-- Builders of the same elements, for which there is room. -/
structure Builder.Alike (builder other : Builder α) : Prop where
  lease : Option.Rel (Lease.Alike builder.length) builder.lease other.lease
  minCapacity : builder.minCapacity = other.minCapacity
  length : builder.length = other.length
  positive : 0 < builder.minCapacity
  room : builder.length ≤ builder.capacity ∨ Size.top ≤ builder.capacity

namespace Builder

variable {builder other : Builder α}

theorem alike_withMinCapacity (minCapacity : Nat) :
    (withMinCapacity minCapacity : Builder α).Alike (withMinCapacity minCapacity) :=
  ⟨.none, rfl, rfl, Nat.le_max_right _ _, .inl (Nat.zero_le _)⟩

namespace Alike

theorem physical (alike : builder.Alike other) :
    Agree builder.length builder.physical other.physical := by
  obtain ⟨lease, minCapacity, length⟩ := builder
  obtain ⟨lease', minCapacity', length'⟩ := other
  obtain ⟨leases, -, -, -, -⟩ := alike
  cases leases with
  | none => exact .refl length #[]
  | some leases => exact leases.cells

theorem capacity (alike : builder.Alike other) : builder.capacity = other.capacity :=
  alike.physical.size

theorem toArray (alike : builder.Alike other) : builder.toArray = other.toArray := by
  rw [Builder.toArray, Builder.toArray, ← alike.length]
  exact alike.physical.extract (Nat.le_refl _) 0

/-- An edit after which `length` elements are shown, where there is room for them. -/
theorem edit (alike : builder.Alike other) {f g : Array α → Array α} {length length' : Nat}
    (respects : Respects builder.length length f g) (same : length = length')
    (size : ∀ cells, (f cells).size = cells.size)
    (room : length ≤ builder.capacity ∨ Size.top ≤ builder.capacity) :
    ({ builder.edit f with length := length } : Builder α).Alike
      { other.edit g with length := length' } := by
  have capacity := builder.capacity_edit size
  obtain ⟨lease, minCapacity, length₀⟩ := builder
  obtain ⟨lease', minCapacity', length₀'⟩ := other
  obtain ⟨leases, least, -, positive, -⟩ := alike
  cases leases with
  | none => exact ⟨.none, least, same, positive, room⟩
  | some leases =>
    obtain ⟨agree, size⟩ := respects _ _ leases.cells
    refine ⟨.some ⟨leases.bucket, agree, leases.fits.with_cells size⟩, least, same, positive, ?_⟩
    rw [← capacity] at room
    exact room

/-- A run behind the elements, as far as the new length goes, where there is room for it. -/
theorem put (alike : builder.Alike other) (run : Array α) {length length' : Nat}
    (same : length = length') (within : length ≤ builder.length + run.size)
    (room : length ≤ builder.capacity ∨ Size.top ≤ builder.capacity) :
    ({ builder.edit (Storage.overwrite · builder.length run) with length := length } :
        Builder α).Alike
      { other.edit (Storage.overwrite · other.length run) with length := length' } :=
  alike.edit (Storage.respects_extend _ alike.length (Nat.le_refl _) run within) same
    (fun _ => Storage.size_overwrite _ _ _) room

theorem set (alike : builder.Alike other) (index : Nat) (value : α) :
    SameOutcome Alike (builder.set index value) (other.set index value) := by
  unfold Builder.set
  rw [← alike.length]
  split
  · exact .refused _
  · have stored := alike.edit (Storage.respects_set (rfl : index = index) value) alike.length
      (fun _ => Array.size_setIfInBounds) alike.room
    rw [with_length_edit, with_length_edit] at stored
    exact .done stored

end Alike

variable [Element α]

namespace Alike

/-- Of the array that a builder moves to, the elements are all that it shows. -/
theorem grow (alike : builder.Alike other) (pools : pool.Alike pool') (requested : Nat)
    (fits : builder.length ≤ builder.capacity)
    (enough : builder.length ≤ requested ∨ Size.top ≤ requested) :
    OnAlike Alike (builder.grow requested pool) (other.grow requested pool') := by
  have wanted := builder.capacity_grow pools.sound requested
  have elements : builder.toArray.size = builder.length := by
    rw [Builder.toArray, Array.size_extract]
    exact Nat.min_eq_left fits
  obtain ⟨rented, middle⟩ := pools.rent (max requested builder.minCapacity)
  obtain ⟨agree, size⟩ := Storage.respects_extend builder.length rfl (Nat.le_refl 0)
    builder.toArray (by omega) _ _ rented.cells
  have lease : Option.Rel (Lease.Alike builder.length) (builder.grow requested pool).1.lease
      (other.grow requested pool').1.lease := by
    simp only [Builder.grow, ← alike.toArray, ← alike.minCapacity]
    exact .some ⟨rented.bucket, agree, rented.fits.with_cells size⟩
  refine ⟨⟨lease, alike.minCapacity, alike.length, alike.positive, ?_⟩, ?_⟩
  · show builder.length ≤ _ ∨ _
    omega
  · simp only [Builder.grow, ← alike.minCapacity]
    have leases := alike.lease
    generalize builder.lease = old at leases ⊢
    generalize other.lease = old' at leases ⊢
    cases leases with
    | none => exact middle
    | some leases => exact middle.giveBack leases

theorem add (alike : builder.Alike other) (pools : pool.Alike pool') (value : α) :
    OnAlike Alike (builder.add value pool) (other.add value pool') := by
  unfold Builder.add
  rw [← alike.length, ← alike.capacity]
  have positive := alike.positive
  by_cases full : builder.length = builder.capacity
  · rw [if_pos full, if_pos full]
    have wanted := builder.capacity_grow pools.sound (Size.mul builder.capacity 2)
    obtain ⟨grown, after⟩ := alike.grow pools (Size.mul builder.capacity 2)
      (Nat.le_of_eq full) (by unfold Size.mul; omega)
    refine ⟨grown.put #[value] (congrArg (· + 1) grown.length) (Nat.le_refl _) ?_, after⟩
    show builder.length + 1 ≤ _ ∨ _
    unfold Size.mul at wanted ⊢
    omega
  · rw [if_neg full, if_neg full]
    have room := alike.room
    refine ⟨alike.put #[value] (congrArg (· + 1) alike.length) (Nat.le_refl _) ?_, pools⟩
    omega

theorem addRun (alike : builder.Alike other) (pools : pool.Alike pool') (run : Array α) :
    OnAlike Alike (builder.addRun run pool) (other.addRun run pool') := by
  unfold Builder.addRun
  rw [← alike.length, ← alike.capacity, ← alike.minCapacity]
  split
  · exact ⟨alike, pools⟩
  have within : Size.add builder.length run.size ≤ builder.length + run.size := Nat.min_le_left _ _
  by_cases short : builder.capacity < Size.add builder.length run.size
  · simp only [if_pos short]
    have positive := alike.positive
    have small : Size.add builder.length run.size ≤ Size.top := Nat.min_le_right _ _
    have reached := le_doubledTo (Size.add builder.length run.size)
      (max (Size.mul builder.capacity 2) builder.minCapacity) (by omega) small
    generalize doubledTo _ _ = requested at reached ⊢
    have room := alike.room
    have wanted := builder.capacity_grow pools.sound requested
    obtain ⟨grown, after⟩ := alike.grow pools requested (by omega)
      (by unfold Size.add at reached; omega)
    exact ⟨grown.put run rfl within (.inl (by omega)), after⟩
  · simp only [if_neg short]
    exact ⟨alike.put run rfl within (.inl (Nat.le_of_not_lt short)), pools⟩

theorem addEach (alike : builder.Alike other) (pools : pool.Alike pool') (run : Array α) :
    OnAlike Alike (builder.addEach run pool) (other.addEach run pool') :=
  Array.foldl_rel (r := OnAlike Alike) ⟨alike, pools⟩
    fun value _ _ _ both => both.object.add both.pool value

theorem dispose (alike : builder.Alike other) (pools : pool.Alike pool') :
    OnAlike Alike (builder.dispose pool) (other.dispose pool') := by
  refine ⟨⟨.none, alike.minCapacity, rfl, alike.positive, .inl (Nat.zero_le _)⟩, ?_⟩
  have leases := alike.lease
  unfold Builder.dispose
  generalize builder.lease = old at leases ⊢
  generalize other.lease = old' at leases ⊢
  cases leases with
  | none => exact pools
  | some leases => exact pools.giveBack leases

theorem perform (alike : builder.Alike other) (pools : pool.Alike pool') (action : Action α) :
    SameAnswer Alike (builder.perform pool action) (other.perform pool' action) := by
  cases action with
  | add value => exact ⟨rfl, alike.add pools value⟩
  | addRun run => exact ⟨rfl, alike.addRun pools run⟩
  | addEach run => exact ⟨rfl, alike.addEach pools run⟩
  | set index value =>
    have stored := alike.set index value
    simp only [Builder.perform]
    generalize builder.set index value = outcome at stored ⊢
    generalize other.set index value = outcome' at stored ⊢
    cases stored with
    | refused refusal => exact ⟨rfl, alike, pools⟩
    | done stored => exact ⟨rfl, stored, pools⟩
  | setWritten index value =>
    have stored := alike.set index value
    simp only [Builder.perform]
    generalize builder.set index value = outcome at stored ⊢
    generalize other.set index value = outcome' at stored ⊢
    cases stored with
    | refused refusal => exact ⟨rfl, alike, pools⟩
    | done stored => exact ⟨rfl, stored, pools⟩
  | read => exact ⟨congrArg Reply.run alike.toArray, alike, pools⟩
  | dispose => exact ⟨rfl, alike.dispose pools⟩

end Alike

end Builder

end PooledBuffers
