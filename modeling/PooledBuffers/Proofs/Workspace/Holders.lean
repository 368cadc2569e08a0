import PooledBuffers.Proofs.Moving
import PooledBuffers.Proofs.Pool.Trades
import PooledBuffers.Workspace.Object

/-!
# Every kind of object trades with its pool

An operation on a writer, a ring, a list or a builder may move it to new memory, give its memory up
or use it again afterwards. Each of them leaves the pool with the leases that the object holds from
then on, so that nothing is lost on the way and nothing is given back twice.

* `Writer.trades_grow`, `GrowList.trades_relocate`, `Builder.trades_grow` — moves to new memory;
* `Writer.trades_perform`, `GrowList.trades_perform`, … — every operation of a kind of object;
* `Writer.dispose_of_nothing`, `GrowList.dispose_of_nothing`, … — what holds no memory gives none
  back.
-/

namespace PooledBuffers

variable {α : Type}

/-! ## Writers -/

instance : Holder (Writer.Backing α) α where
  leases
    | .initial span => Holder.leases span
    | .grown block _ => Holder.leases block

instance : Holder (Writer α) α := ⟨fun writer => Holder.leases writer.backing⟩

namespace Writer

theorem Backing.trades_edit (backing : Backing α) (pool : Pool α) {f : Array α → Array α}
    (same : ∀ cells, (f cells).size = cells.size) :
    Trades (backing, pool) (backing.edit f, pool) := by
  cases backing with
  | initial span => exact span.trades_edit pool same
  | grown block caller => exact block.trades_edit pool same

theorem trades_edit (writer : Writer α) (pool : Pool α) {f : Array α → Array α}
    (same : ∀ cells, (f cells).size = cells.size) : Trades (writer, pool) (writer.edit f, pool) :=
  writer.backing.trades_edit pool same

variable [Element α]

theorem Backing.trades_dispose (backing : Backing α) (pool : Pool α) :
    Trades (backing, pool) (backing.dispose pool) := by
  cases backing with
  | initial span => exact span.trades_dispose pool
  | grown block caller => exact block.trades_dispose pool

theorem Backing.leases_dispose (backing : Backing α) (pool : Pool α) :
    Holder.leases (backing.dispose pool).1 = ([] : List (Lease α)) := by
  cases backing with
  | initial span => exact span.leases_dispose pool
  | grown block caller => exact block.leases_dispose pool

theorem Backing.dispose_of_nothing {backing : Backing α}
    (nothing : Holder.leases backing = ([] : List (Lease α))) (pool : Pool α) :
    (backing.dispose pool).2 = pool := by
  cases backing with
  | initial span => exact Span.dispose_of_nothing nothing pool
  | grown block caller => exact Block.dispose_of_nothing nothing pool

variable (writer : Writer α) (pool : Pool α)

theorem trades_withCapacity (length : Nat) :
    Trades ((), pool) (Writer.withCapacity pool length) :=
  Block.trades_rent pool length true

/-- A growth rents the new memory and then gives back the old. -/
theorem trades_grow (requested : Nat) : Trades (writer, pool) (writer.grow requested pool) := by
  have rented := Block.trades_rent pool (writer.grownCapacity requested) false
  simp only [grow]
  rcases made : Block.rent pool (writer.grownCapacity requested) false with ⟨block, middle⟩
  rw [made] at rented
  have released := (writer.backing.trades_dispose middle).ended
    (writer.backing.leases_dispose middle)
  refine (rented.trans (block.trades_edit middle fun cells => ?_)).replace released
  rw [Storage.size_overwrite, Storage.size_overwrite]

theorem trades_ensureFree (count : Nat) : Trades (writer, pool) (writer.ensureFree count pool) := by
  unfold ensureFree
  split
  · exact writer.trades_grow pool _
  · exact .refl _

theorem trades_ensureCapacity (length : Nat) :
    Trades (writer, pool) (writer.ensureCapacity length pool) := by
  unfold ensureCapacity
  split
  · exact writer.trades_grow pool _
  · exact .refl _

theorem trades_append (value : α) : Trades (writer, pool) (writer.append value pool) :=
  (writer.trades_ensureFree pool 1).trans
    (Backing.trades_edit _ _ fun _ => Array.size_setIfInBounds)

theorem trades_appendRun (run : Array α) : Trades (writer, pool) (writer.appendRun run pool) :=
  (writer.trades_ensureFree pool run.size).trans
    (Backing.trades_edit _ _ fun _ => Storage.size_overwrite _ _ _)

theorem trades_appendEach (run : Array α) : Trades (writer, pool) (writer.appendEach run pool) :=
  Trades.foldl (fun state => state) (fun state value => state.1.trades_append state.2 value) run
    (writer, pool)

theorem trades_acquire (count : Nat) (movePosition : Bool) (content : Array α) :
    Trades (writer, pool) (writer.acquire count movePosition content pool).2 :=
  (writer.trades_ensureFree pool count).trans
    (Backing.trades_edit _ _ fun _ => Storage.size_overwrite _ _ _)

theorem trades_moveWithin {start size target : Nat} {movePosition : Bool} {next : Writer α × Pool α}
    (moved : writer.moveWithin start size target movePosition pool = .ok next) :
    Trades (writer, pool) next := by
  unfold moveWithin at moved
  split at moved
  · cases moved
  split at moved
  · cases moved
    exact writer.trades_ensureCapacity pool target
  split at moved
  · cases moved
  · cases moved
    exact (writer.trades_ensureCapacity pool (target + size)).trans
      (Backing.trades_edit _ _ fun _ => Storage.size_moveWithin _ _ _ _)

omit [Element α] in
theorem trades_set {index : Nat} {value : α} {next : Writer α}
    (stored : writer.set? index value = some next) : Trades (writer, pool) (next, pool) := by
  unfold set? at stored
  split at stored
  · cases stored
    exact writer.trades_edit pool fun _ => Array.size_setIfInBounds
  · cases stored

theorem trades_dispose : Trades (writer, pool) (writer.dispose pool) :=
  writer.backing.trades_dispose pool

theorem trades_perform (action : Action α) :
    Trades (writer, pool) (writer.perform pool action).2 := by
  cases action with
  | append value => exact writer.trades_append pool value
  | appendRun run => exact writer.trades_appendRun pool run
  | appendEach run => exact writer.trades_appendEach pool run
  | acquire count movePosition content =>
    exact writer.trades_acquire pool count movePosition content
  | advance count => exact writer.trades_ensureFree pool count
  | advanceTo position => exact writer.trades_ensureCapacity pool position
  | moveWithin start size target movePosition =>
    simp only [perform]
    split
    · rename_i next moved
      exact writer.trades_moveWithin pool moved
    · exact .refl _
  | setPosition position =>
    simp only [perform, setPosition]
    split
    · rename_i next moved
      split at moved
      · cases moved
      · cases moved
        exact .refl _
    · exact .refl _
  | reset => exact .refl _
  | fill value => exact writer.trades_edit pool fun _ => Storage.size_overwrite _ _ _
  | set index value =>
    simp only [perform]
    split
    · rename_i next stored
      exact writer.trades_set pool stored
    · exact .refl _
  | setWritten index value =>
    simp only [perform]
    split
    · rename_i next stored
      unfold setWritten? at stored
      split at stored
      · exact writer.trades_set pool stored
      · cases stored
    · exact .refl _
  | dispose => exact writer.trades_dispose pool

theorem dispose_of_nothing {writer : Writer α}
    (nothing : Holder.leases writer = ([] : List (Lease α))) (pool : Pool α) :
    (writer.dispose pool).2 = pool :=
  Backing.dispose_of_nothing nothing pool

end Writer

/-! ## Leases, blocks and spans -/

variable [Element α]

theorem Lease.trades_perform (lease : Lease α) (pool : Pool α) (action : Lease.Action α) :
    Trades (lease, pool) (lease.perform pool action).2 := by
  cases action with
  | set index value =>
    simp only [Lease.perform, Storage.set?]
    split
    · rename_i cells stored
      split at stored
      · cases stored
        exact lease.trades_cells pool Array.size_setIfInBounds
      · cases stored
    · exact .refl _
  | fill value => exact lease.trades_cells pool (Storage.size_fill _ _)
  | rentMore length =>
    -- The second lease comes and goes while the first one stays.
    intro others lends
    exact ((pool.trades_rent length).trans (Pool.trades_giveBack _ _)) (lease :: others) lends

omit [Element α] in
theorem Block.trades_set {block next : Block α} (pool : Pool α) {index : Nat} {value : α}
    (stored : block.set? index value = some next) : Trades (block, pool) (next, pool) := by
  unfold Block.set? at stored
  split at stored
  · cases stored
    exact block.trades_edit pool fun _ => Array.size_setIfInBounds
  · cases stored

omit [Element α] in
/-- The array behind a block stays when its length changes. -/
theorem Block.trades_resize {block next : Block α} (pool : Pool α) {length : Nat}
    (resized : block.resize? length = some next) : Trades (block, pool) (next, pool) := by
  unfold Block.resize? at resized
  split at resized
  · cases resized
  · cases resized
    exact .refl _

theorem Block.trades_perform (block : Block α) (pool : Pool α) (action : Block.Action α) :
    Trades (block, pool) (block.perform pool action).2 := by
  cases action with
  | resize length =>
    simp only [Block.perform]
    split
    · rename_i next resized
      exact Block.trades_resize pool resized
    · exact .refl _
  | set index value =>
    simp only [Block.perform]
    split
    · rename_i next stored
      exact Block.trades_set pool stored
    · exact .refl _
  | fill value => exact block.trades_edit pool fun _ => Storage.size_overwrite _ _ _
  | get index =>
    simp only [Block.perform]
    split
    · exact .refl _
    · exact .refl _
  | store index value =>
    simp only [Block.perform]
    split
    · rename_i next stored
      exact Block.trades_set pool stored
    · exact .refl _
  | read => exact .refl _
  | dispose => exact block.trades_dispose pool

omit [Element α] in
theorem Span.trades_set {span next : Span α} (pool : Pool α) {index : Nat} {value : α}
    (stored : span.set? index value = some next) : Trades (span, pool) (next, pool) := by
  unfold Span.set? at stored
  split at stored
  · cases stored
    exact span.trades_edit pool fun _ => Array.size_setIfInBounds
  · cases stored

theorem Span.trades_perform (span : Span α) (pool : Pool α) (action : Span.Action α) :
    Trades (span, pool) (span.perform pool action).2 := by
  cases action with
  | set index value =>
    simp only [Span.perform]
    split
    · rename_i next stored
      exact Span.trades_set pool stored
    · exact .refl _
  | fill value => exact span.trades_edit pool fun _ => Storage.size_overwrite _ _ _
  | get index =>
    simp only [Span.perform]
    split
    · exact .refl _
    · exact .refl _
  | store index value =>
    simp only [Span.perform]
    split
    · rename_i next stored
      exact Span.trades_set pool stored
    · exact .refl _
  | dispose => exact span.trades_dispose pool

/-! ## Rings -/

instance : Holder (Ring α) α := ⟨fun ring => Holder.leases ring.memory⟩

namespace Ring

theorem trades_rent {pool : Pool α} {capacity : Nat} {made : Ring α × Pool α}
    (h : Ring.rent pool capacity = .ok made) : Trades ((), pool) made := by
  unfold Ring.rent at h
  split at h
  · cases h
  · cases h
    exact Span.trades_rent pool capacity

omit [Element α] in
/-- Memory that a caller lends is none of the pool's. -/
theorem trades_lend {cells : Array α} {made : Ring α} (h : Ring.lend cells = .ok made)
    (pool : Pool α) : Trades ((), pool) (made, pool) := by
  unfold Ring.lend at h
  split at h
  · cases h
  · cases h
    exact .refl _

variable (ring : Ring α) (pool : Pool α)

omit [Element α] in
theorem trades_add (value : α) : Trades (ring, pool) (ring.add value, pool) :=
  ring.memory.trades_edit pool fun _ => Array.size_setIfInBounds

omit [Element α] in
theorem trades_addEach (run : Array α) : Trades (ring, pool) (ring.addEach run, pool) :=
  Trades.foldl (fun ring => (ring, pool)) (fun ring value => ring.trades_add pool value) run ring

omit [Element α] in
theorem trades_set {index : Nat} {value : α} {next : Ring α}
    (stored : ring.set? index value = some next) : Trades (ring, pool) (next, pool) := by
  obtain ⟨slot, -, rfl⟩ := Option.map_eq_some_iff.1 stored
  exact ring.memory.trades_edit pool fun _ => Array.size_setIfInBounds

omit [Element α] in
theorem trades_assign (run : Array α) : Trades (ring, pool) (ring.assign run, pool) := by
  refine ring.memory.trades_edit pool fun cells => ?_
  rw [Storage.size_overwrite, Storage.size_overwrite]

theorem trades_perform (action : Action α) :
    Trades (ring, pool) ((ring.perform action).2, pool) := by
  cases action with
  | add value => exact ring.trades_add pool value
  | addEach run => exact ring.trades_addEach pool run
  | look index => exact .refl _
  | get index => exact .refl _
  | set index value =>
    simp only [perform]
    split
    · rename_i next stored
      exact ring.trades_set pool stored
    · exact .refl _
  | store index value =>
    simp only [perform]
    split
    · rename_i next stored
      exact ring.trades_set pool stored
    · exact .refl _
  | clear => exact ring.memory.trades_edit pool fun _ => Storage.size_overwrite _ _ _
  | halves => exact .refl _
  | lookHalves index => exact .refl _
  | setHalves index value =>
    simp only [perform]
    split
    · exact ring.trades_assign pool _
    · exact .refl _
  | assign run => exact ring.trades_assign pool run
  | reversed => exact .refl _

end Ring

/-! ## Lists -/

instance : Holder (GrowList α) α := ⟨fun list => Holder.leases list.block⟩

namespace GrowList

variable (list : GrowList α) (pool : Pool α)

theorem trades_withCapacity (capacity : Nat) :
    Trades ((), pool) (GrowList.withCapacity pool capacity) :=
  Block.trades_rent pool capacity true

/-- A move rents the new memory and then gives back the old. -/
theorem trades_relocate (capacity : Nat) : Trades (list, pool) (list.relocate capacity pool) := by
  have rented := Block.trades_rent pool capacity true
  simp only [relocate]
  rcases made : Block.rent pool capacity true with ⟨block, middle⟩
  rw [made] at rented
  have released := (list.block.trades_dispose middle).ended (list.block.leases_dispose middle)
  exact (rented.trans (block.trades_edit middle fun _ => Storage.size_overwrite _ _ _)).replace
    released

theorem trades_reserve (capacity : Nat) : Trades (list, pool) (list.reserve capacity pool) := by
  unfold reserve
  split
  · exact .refl _
  split
  · rename_i block resized
    exact Block.trades_resize pool resized
  · exact list.trades_relocate pool capacity

theorem trades_trim : Trades (list, pool) (list.trim pool) := by
  unfold trim
  split
  · exact .refl _
  · exact list.trades_relocate pool _

theorem trades_add (value : α) : Trades (list, pool) (list.add value pool) := by
  simp only [add]
  split
  · exact (list.trades_reserve pool _).trans
      (Block.trades_edit _ _ fun _ => Array.size_setIfInBounds)
  · exact list.block.trades_edit pool fun _ => Array.size_setIfInBounds

theorem trades_addRange (run : Array α) : Trades (list, pool) (list.addRange run pool) := by
  unfold addRange
  split
  · exact .refl _
  · exact (list.trades_reserve pool _).trans
      (Block.trades_edit _ _ fun _ => Storage.size_overwrite _ _ _)

theorem trades_addEach (run : Array α) : Trades (list, pool) (list.addEach run pool) :=
  Trades.foldl (fun state => state) (fun state value => state.1.trades_add state.2 value) run
    (list, pool)

omit [Element α] in
theorem trades_set {index : Nat} {value : α} {next : GrowList α}
    (stored : list.set? index value = some next) : Trades (list, pool) (next, pool) := by
  unfold set? at stored
  split at stored
  · cases stored
    exact list.block.trades_edit pool fun _ => Array.size_setIfInBounds
  · cases stored

theorem trades_dispose : Trades (list, pool) (list.dispose pool) := list.block.trades_dispose pool

theorem leases_dispose : Holder.leases (list.dispose pool).1 = ([] : List (Lease α)) :=
  list.block.leases_dispose pool

theorem dispose_of_nothing {list : GrowList α}
    (nothing : Holder.leases list = ([] : List (Lease α)))
    (pool : Pool α) : (list.dispose pool).2 = pool :=
  Block.dispose_of_nothing nothing pool

theorem trades_ofRun (run : Array α) : Trades ((), pool) (GrowList.ofRun pool run) :=
  (trades_withCapacity pool run.size).trans (trades_addRange _ _ run)

theorem trades_collect (run : Array α) : Trades ((), pool) (GrowList.collect pool run) :=
  (trades_withCapacity pool run.size).trans (trades_addEach _ _ run)

theorem trades_perform [BEq α] (action : Action α) :
    Trades (list, pool) (list.perform pool action).2 := by
  cases action with
  | add value => exact list.trades_add pool value
  | addRange run => exact list.trades_addRange pool run
  | addEach run => exact list.trades_addEach pool run
  | look index => exact .refl _
  | get index => exact .refl _
  | set index value =>
    simp only [perform]
    split
    · rename_i next stored
      exact list.trades_set pool stored
    · exact .refl _
  | store index value =>
    simp only [perform]
    split
    · rename_i next stored
      exact list.trades_set pool stored
    · exact .refl _
  | indexOf value => exact .refl _
  | contains value => exact .refl _
  | reserve capacity => exact list.trades_reserve pool capacity
  | trim => exact list.trades_trim pool
  | clear => exact list.block.trades_edit pool fun _ => Storage.size_blankFirst _ _
  | dispose => exact list.trades_dispose pool
  | assign run => exact list.block.trades_edit pool fun _ => Storage.size_overwrite _ _ _
  | read => exact .refl _

end GrowList

/-! ## Lists of distinct elements -/

instance : Holder (DistinctList α) α := ⟨fun distinct => Holder.leases distinct.list⟩

namespace DistinctList

variable [BEq α] (distinct : DistinctList α) (pool : Pool α)

omit [BEq α] in
theorem trades_withCapacity (capacity : Nat) :
    Trades ((), pool) (DistinctList.withCapacity pool capacity) :=
  GrowList.trades_withCapacity pool capacity

theorem trades_add (value : α) : Trades (distinct, pool) (distinct.add value pool).2 := by
  unfold add
  split
  · exact .refl _
  · exact distinct.list.trades_add pool value

theorem trades_addRange (run : Array α) : Trades (distinct, pool) (distinct.addRange run pool).2 :=
  Trades.foldl (fun state : Nat × DistinctList α × Pool α => state.2)
    (fun state value => state.2.1.trades_add state.2.2 value) run (0, distinct, pool)

theorem trades_ofRun (run : Array α) : Trades ((), pool) (DistinctList.ofRun pool run) :=
  (trades_withCapacity pool run.size).trans (trades_addRange _ _ run)

theorem trades_collect (run : Array α) : Trades ((), pool) (DistinctList.collect pool run) :=
  (trades_withCapacity pool 0).trans (trades_addRange _ _ run)

theorem trades_perform (action : Action α) :
    Trades (distinct, pool) (distinct.perform pool action).2 := by
  cases action with
  | add value => exact distinct.trades_add pool value
  | addRange run => exact distinct.trades_addRange pool run
  | addEach run => exact distinct.trades_addRange pool run
  | contains value => exact .refl _
  | containsAny run => exact .refl _
  | look index => exact .refl _
  | get index => exact .refl _
  | clear => exact distinct.list.block.trades_edit pool fun _ => Storage.size_blankFirst _ _
  | dispose => exact distinct.list.trades_dispose pool
  | read => exact .refl _

end DistinctList

/-! ## Builders -/

instance : Holder (Builder α) α := ⟨fun builder => builder.lease.toList⟩

namespace Builder

variable (builder : Builder α) (pool : Pool α)

omit [Element α] in
theorem trades_edit {f : Array α → Array α} (same : ∀ cells, (f cells).size = cells.size) :
    Trades (builder, pool) (builder.edit f, pool) := by
  obtain ⟨lease, minCapacity, length⟩ := builder
  cases lease with
  | none => exact .refl _
  | some lease => exact lease.trades_cells pool (same lease.cells)

theorem trades_dispose : Trades (builder, pool) (builder.dispose pool) := by
  obtain ⟨lease, minCapacity, length⟩ := builder
  cases lease with
  | none => exact .refl _
  | some lease => exact pool.trades_giveBack lease

theorem dispose_of_nothing {builder : Builder α}
    (nothing : Holder.leases builder = ([] : List (Lease α))) (pool : Pool α) :
    (builder.dispose pool).2 = pool := by
  obtain ⟨lease, minCapacity, length⟩ := builder
  cases lease with
  | none => rfl
  | some lease => cases nothing

/-- A growth rents the new array and then gives back the old one, if there was one. -/
theorem trades_grow (requested : Nat) : Trades (builder, pool) (builder.grow requested pool) := by
  have rented := pool.trades_rent (max requested builder.minCapacity)
  simp only [grow]
  rcases made : pool.rent (max requested builder.minCapacity) with ⟨lease, middle⟩
  rw [made] at rented
  have released := (builder.trades_dispose middle).ended rfl
  exact (rented.trans (lease.trades_cells middle (Storage.size_overwrite _ _ _))).replace released

theorem trades_add (value : α) : Trades (builder, pool) (builder.add value pool) := by
  simp only [add]
  split
  · exact (builder.trades_grow pool _).trans (trades_edit _ _ fun _ => Array.size_setIfInBounds)
  · exact builder.trades_edit pool fun _ => Array.size_setIfInBounds

theorem trades_addRun (run : Array α) : Trades (builder, pool) (builder.addRun run pool) := by
  simp only [addRun]
  split
  · exact .refl _
  split
  · exact (builder.trades_grow pool _).trans (trades_edit _ _ fun _ => Storage.size_overwrite _ _ _)
  · exact builder.trades_edit pool fun _ => Storage.size_overwrite _ _ _

theorem trades_addEach (run : Array α) : Trades (builder, pool) (builder.addEach run pool) :=
  Trades.foldl (fun state => state) (fun state value => state.1.trades_add state.2 value) run
    (builder, pool)

omit [Element α] in
theorem trades_set {index : Nat} {value : α} {next : Builder α}
    (stored : builder.set index value = .ok next) : Trades (builder, pool) (next, pool) := by
  unfold set at stored
  split at stored
  · cases stored
  · cases stored
    exact builder.trades_edit pool fun _ => Array.size_setIfInBounds

theorem trades_perform (action : Action α) :
    Trades (builder, pool) (builder.perform pool action).2 := by
  cases action with
  | add value => exact builder.trades_add pool value
  | addRun run => exact builder.trades_addRun pool run
  | addEach run => exact builder.trades_addEach pool run
  | set index value =>
    simp only [perform]
    split
    · rename_i next stored
      exact builder.trades_set pool stored
    · exact .refl _
  | setWritten index value =>
    simp only [perform]
    split
    · rename_i next stored
      exact builder.trades_set pool stored
    · exact .refl _
  | read => exact .refl _
  | dispose => exact builder.trades_dispose pool

end Builder

end PooledBuffers
