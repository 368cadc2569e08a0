import PooledBuffers.Proofs.Workspace.Holders
import PooledBuffers.Workspace.Typed

/-!
# Every lease comes back once

In a workspace any number of objects of all kinds live on one pool. After every step the pool counts
as many arrays out as there are objects that hold one, and none when all objects are gone; what has
been disposed of once gives nothing more back.

* `Object.trades_make`, `Object.trades_perform`, `Object.trades_drop` — the life of one object;
* `Object.disposal` — how an object gives its memory up, if it can before its end;
* `Workspace.Settled`, `Workspace.Settled.step` — the pool accounts for all objects, step by step;
* `Workspace.returns_every_lease` — so for every usable configuration and every run.
-/

namespace PooledBuffers

variable {α : Type}

/-! ## Objects -/

instance : Holder (Object α) α where
  leases
    | .ofLease lease => Holder.leases lease
    | .ofBlock block => Holder.leases block
    | .ofSpan span => Holder.leases span
    | .ofWriter writer => Holder.leases writer
    | .ofRing ring => Holder.leases ring
    | .ofList list => Holder.leases list
    | .ofDistinct distinct => Holder.leases distinct
    | .ofBuilder builder => Holder.leases builder

namespace Object

/-- How an object gives its memory up before its end; a lease or a ring cannot. -/
def disposal : Object α → Option (Action α)
  | .ofLease _ | .ofRing _ => none
  | .ofBlock _ => some (.block .dispose)
  | .ofSpan _ => some (.span .dispose)
  | .ofWriter _ => some (.writer .dispose)
  | .ofList _ => some (.list .dispose)
  | .ofDistinct _ => some (.distinct .dispose)
  | .ofBuilder _ => some (.builder .dispose)

/-- A block holds no lease or one, whose array it shows. -/
private theorem leases_block (block : Block α) :
    (Holder.leases block = ([] : List (Lease α)) ∧ block.capacity = 0) ∨
      ∃ lease : Lease α, Holder.leases block = [lease] ∧ block.capacity = lease.capacity := by
  obtain ⟨lease, length⟩ := block
  cases lease with
  | none => exact .inl ⟨rfl, rfl⟩
  | some lease => exact .inr ⟨lease, rfl, rfl⟩

private theorem leases_span (span : Span α) :
    (Holder.leases span = ([] : List (Lease α)) ∧ (Object.ofSpan span).heldLength = 0) ∨
      ∃ lease : Lease α, Holder.leases span = [lease] ∧
        (Object.ofSpan span).heldLength = lease.capacity := by
  cases span with
  | borrowed cells => exact .inl ⟨rfl, rfl⟩
  | rented block => exact leases_block block
  | released caller => exact .inl ⟨rfl, rfl⟩

/-- No object holds more than one lease, whose array has the length that the object tells. -/
theorem leases_cases (object : Object α) :
    (Holder.leases object = ([] : List (Lease α)) ∧ object.heldLength = 0) ∨
      ∃ lease : Lease α, Holder.leases object = [lease] ∧ object.heldLength = lease.capacity := by
  cases object with
  | ofLease lease => exact .inr ⟨lease, rfl, rfl⟩
  | ofBlock block => exact leases_block block
  | ofSpan span => exact leases_span span
  | ofWriter writer =>
    obtain ⟨backing, initialLength, minGrow, position⟩ := writer
    cases backing with
    | initial span =>
      cases span with
      | borrowed cells => exact .inl ⟨rfl, rfl⟩
      | rented block => exact leases_block block
      | released caller => exact .inl ⟨rfl, rfl⟩
    | grown block caller => exact leases_block block
  | ofRing ring =>
    obtain ⟨memory, window⟩ := ring
    cases memory with
    | borrowed cells => exact .inl ⟨rfl, rfl⟩
    | rented block => exact leases_block block
    | released caller => exact .inl ⟨rfl, rfl⟩
  | ofList list => exact leases_block list.block
  | ofDistinct distinct => exact leases_block distinct.list.block
  | ofBuilder builder =>
    obtain ⟨lease, minCapacity, length⟩ := builder
    cases lease with
    | none => exact .inl ⟨rfl, rfl⟩
    | some lease => exact .inr ⟨lease, rfl, rfl⟩

/-- The array of an object counts once, if there is one. -/
theorem held_leases (object : Object α) :
    Lease.held (Holder.leases object : List (Lease α)) =
      if 0 < object.heldLength then 1 else 0 := by
  rcases object.leases_cases with ⟨none, length⟩ | ⟨lease, one, length⟩
  · rw [none, length]
    rfl
  · rw [one, length, Lease.held_cons]
    exact Nat.zero_add _

variable [Element α]

/-! ### Making, using and ending an object -/

omit [Element α] in
theorem trades_withGrowth {pool next : Pool α} {writer : Writer α}
    (trades : Trades ((), pool) (writer, next)) (minGrow : Option Nat) :
    Trades ((), pool) (withGrowth writer minGrow, next) := by
  cases minGrow with
  | none => exact trades
  | some least => exact trades

variable [BEq α]

theorem trades_make {pool : Pool α} {recipe : Recipe α} {made : Object α × Pool α}
    (h : make pool recipe = .ok made) : Trades ((), pool) made := by
  cases recipe with
  | lease length =>
    cases h
    exact pool.trades_rent length
  | block length cleared =>
    cases h
    exact Block.trades_rent pool length cleared
  | span length =>
    cases h
    exact Span.trades_rent pool length
  | lentSpan cells =>
    cases h
    exact .refl _
  | writer length minGrow =>
    cases h
    exact trades_withGrowth (Writer.trades_withCapacity pool length) minGrow
  | lentWriter cells minGrow =>
    cases h
    cases minGrow with
    | none => exact .refl _
    | some least => exact .refl _
  | ring capacity =>
    cases rented : Ring.rent pool capacity with
    | error e =>
      simp only [make, rented] at h
      cases h
    | ok ring =>
      simp only [make, rented] at h
      cases h
      exact Ring.trades_rent rented
  | lentRing cells =>
    cases lent : Ring.lend cells with
    | error e =>
      simp only [make, lent] at h
      cases h
    | ok ring =>
      simp only [make, lent] at h
      cases h
      exact Ring.trades_lend lent pool
  | list capacity =>
    cases h
    exact GrowList.trades_withCapacity pool capacity
  | listOf run =>
    cases h
    exact GrowList.trades_ofRun pool run
  | collectedList run =>
    cases h
    exact GrowList.trades_collect pool run
  | distinct capacity =>
    cases h
    exact DistinctList.trades_withCapacity pool capacity
  | distinctOf run =>
    cases h
    exact DistinctList.trades_ofRun pool run
  | collectedDistinct run =>
    cases h
    exact DistinctList.trades_collect pool run
  | builder minCapacity =>
    cases h
    exact .refl _

theorem trades_perform (object : Object α) (pool : Pool α) (action : Action α) :
    Trades (object, pool) (object.perform pool action).2 := by
  unfold perform
  split
  · rename_i lease action
    exact lease.trades_perform pool action
  · rename_i block action
    exact block.trades_perform pool action
  · rename_i span action
    exact span.trades_perform pool action
  · rename_i writer action
    exact writer.trades_perform pool action
  · rename_i ring action
    exact ring.trades_perform pool action
  · rename_i list action
    exact list.trades_perform pool action
  · rename_i distinct action
    exact distinct.trades_perform pool action
  · rename_i builder action
    exact builder.trades_perform pool action
  · exact .refl _

omit [BEq α] in
theorem trades_drop (object : Object α) (pool : Pool α) :
    Trades (object, pool) ((), (object.drop pool).2) := by
  cases object with
  | ofLease lease => exact pool.trades_giveBack lease
  | ofBlock block => exact (block.trades_dispose pool).ended (block.leases_dispose pool)
  | ofSpan span => exact (span.trades_dispose pool).ended (span.leases_dispose pool)
  | ofWriter writer =>
    exact (writer.trades_dispose pool).ended (writer.backing.leases_dispose pool)
  | ofRing ring => exact (ring.memory.trades_dispose pool).ended (ring.memory.leases_dispose pool)
  | ofList list => exact (list.trades_dispose pool).ended (list.leases_dispose pool)
  | ofDistinct distinct =>
    exact (distinct.list.trades_dispose pool).ended (distinct.list.leases_dispose pool)
  | ofBuilder builder => exact (builder.trades_dispose pool).ended rfl

/-! ### After a disposal -/

/-- An object that has given its memory up holds none, and can be told to do so again. -/
theorem disposed {object : Object α} {action : Action α} (way : object.disposal = some action)
    (pool : Pool α) :
    Holder.leases (object.perform pool action).2.1 = ([] : List (Lease α)) ∧
      (object.perform pool action).2.1.disposal = some action := by
  cases object with
  | ofLease lease => cases way
  | ofBlock block =>
    cases way
    exact ⟨block.leases_dispose pool, rfl⟩
  | ofSpan span =>
    cases way
    exact ⟨span.leases_dispose pool, rfl⟩
  | ofWriter writer =>
    cases way
    exact ⟨writer.backing.leases_dispose pool, rfl⟩
  | ofRing ring => cases way
  | ofList list =>
    cases way
    exact ⟨list.leases_dispose pool, rfl⟩
  | ofDistinct distinct =>
    cases way
    exact ⟨distinct.list.leases_dispose pool, rfl⟩
  | ofBuilder builder =>
    cases way
    exact ⟨rfl, rfl⟩

/-- An object without memory has nothing to give up. -/
theorem dispose_of_nothing {object : Object α} {action : Action α}
    (way : object.disposal = some action) (nothing : Holder.leases object = ([] : List (Lease α)))
    (pool : Pool α) : (object.perform pool action).2.2 = pool := by
  cases object with
  | ofLease lease => cases way
  | ofBlock block =>
    cases way
    exact Block.dispose_of_nothing nothing pool
  | ofSpan span =>
    cases way
    exact Span.dispose_of_nothing nothing pool
  | ofWriter writer =>
    cases way
    exact Writer.dispose_of_nothing nothing pool
  | ofRing ring => cases way
  | ofList list =>
    cases way
    exact GrowList.dispose_of_nothing nothing pool
  | ofDistinct distinct =>
    cases way
    exact GrowList.dispose_of_nothing nothing pool
  | ofBuilder builder =>
    cases way
    exact Builder.dispose_of_nothing nothing pool

omit [BEq α] in
/-- An object without memory leaves the pool as it is when it ends. -/
theorem drop_of_nothing {object : Object α} (nothing : Holder.leases object = ([] : List (Lease α)))
    (pool : Pool α) : (object.drop pool).2 = pool := by
  cases object with
  | ofLease lease => cases nothing
  | ofBlock block => exact Block.dispose_of_nothing nothing pool
  | ofSpan span => exact Span.dispose_of_nothing nothing pool
  | ofWriter writer => exact Writer.dispose_of_nothing nothing pool
  | ofRing ring => exact Span.dispose_of_nothing nothing pool
  | ofList list => exact GrowList.dispose_of_nothing nothing pool
  | ofDistinct distinct => exact GrowList.dispose_of_nothing nothing pool
  | ofBuilder builder => exact Builder.dispose_of_nothing nothing pool

end Object

/-! ## Workspaces -/

instance : Holder (List (String × Object α)) α :=
  ⟨fun objects => objects.flatMap fun entry => Holder.leases entry.2⟩

namespace Workspace

/-- The objects that hold an array are as many as the arrays they hold. -/
theorem holderCount_eq (workspace : Workspace α) :
    workspace.holderCount = Lease.held (Holder.leases workspace.objects : List (Lease α)) := by
  unfold holderCount
  induction workspace.objects with
  | nil => rfl
  | cons entry rest ih =>
    have split : (Holder.leases (entry :: rest) : List (Lease α)) =
        Holder.leases entry.2 ++ Holder.leases rest := rfl
    have one := entry.2.held_leases
    unfold Lease.held at one ih ⊢
    rw [split, List.countP_append, List.countP_cons, one, ih, Nat.add_comm]
    simp

/-- Names are used once, and the pool accounts for all objects. -/
structure Settled (workspace : Workspace α) : Prop where
  names : (workspace.objects.map Prod.fst).Nodup
  lends : workspace.pool.Lends (Holder.leases workspace.objects)

variable {workspace : Workspace α} {name : String} {object : Object α}

/-- The objects beside the one of a name. -/
theorem perm_of_find? (names : (workspace.objects.map Prod.fst).Nodup)
    (found : workspace.find? name = some object) :
    workspace.objects.Perm ((name, object) :: (workspace.erase name).objects) := by
  obtain ⟨front, back, split, first⟩ := List.lookup_eq_some_iff.1 found
  rw [split, List.map_append, List.map_cons, List.nodup_append] at names
  have front_kept : front.filter (fun entry => entry.1 != name) = front := by
    refine List.filter_eq_self.2 fun entry member => ?_
    rw [bne_comm]
    exact first entry member
  have back_kept : back.filter (fun entry => entry.1 != name) = back := by
    refine List.filter_eq_self.2 fun entry member => ?_
    have other := (List.nodup_cons.1 names.2.1).1
    refine bne_iff_ne.2 fun same => other ?_
    show name ∈ back.map Prod.fst
    rw [← same]
    exact List.mem_map_of_mem member
  have rest : (workspace.erase name).objects = front ++ back := by
    rw [erase, split, List.filter_append, List.filter_cons_of_neg (by simp), front_kept, back_kept]
  rw [rest, split]
  exact List.perm_middle

/-- A name that is not there is not taken away. -/
theorem erase_of_none (missing : workspace.find? name = none) :
    (workspace.erase name).objects = workspace.objects := by
  refine List.filter_eq_self.2 fun entry member => ?_
  rw [bne_comm]
  exact List.lookup_eq_none_iff.1 missing entry member

theorem names_erase (names : (workspace.objects.map Prod.fst).Nodup) (name : String) :
    ((workspace.erase name).objects.map Prod.fst).Nodup :=
  names.sublist (List.filter_sublist.map _)

theorem names_cons_erase (names : (workspace.objects.map Prod.fst).Nodup) (name : String)
    (object : Object α) :
    (((name, object) :: (workspace.erase name).objects).map Prod.fst).Nodup := by
  refine List.nodup_cons.2 ⟨fun again => ?_, names_erase names name⟩
  obtain ⟨entry, member, same⟩ := List.mem_map.1 again
  have other := (List.mem_filter.1 member).2
  exact bne_iff_ne.1 other same

theorem trades_find? (names : (workspace.objects.map Prod.fst).Nodup)
    (found : workspace.find? name = some object) :
    Trades (workspace.objects, workspace.pool)
      ((object, (workspace.erase name).objects), workspace.pool) :=
  .of_perm ((perm_of_find? names found).flatMap_right _) _

variable [Element α]

/-! ### Steps -/

theorem objects_drop (workspace : Workspace α) (name : String) :
    (workspace.drop name).2.objects = (workspace.erase name).objects := by
  unfold drop
  split
  · rename_i missing
    exact (erase_of_none missing).symm
  · rfl

theorem trades_drop (names : (workspace.objects.map Prod.fst).Nodup) (name : String) :
    Trades (workspace.objects, workspace.pool)
      ((workspace.drop name).2.objects, (workspace.drop name).2.pool) := by
  unfold drop
  split
  · exact .refl _
  · rename_i object found
    exact (trades_find? names found).trans ((object.trades_drop workspace.pool).beside _)

/-- An object takes the place of the one that had its name, which ends. -/
theorem objects_insert_drop (workspace : Workspace α) (name : String) (object : Object α) :
    ((workspace.drop name).2.insert name object).objects =
      (name, object) :: (workspace.drop name).2.objects := by
  have once : ((workspace.drop name).2.erase name).objects = (workspace.drop name).2.objects := by
    refine List.filter_eq_self.2 fun entry member => ?_
    rw [objects_drop] at member
    exact (List.mem_filter.1 member).2
  rw [insert, once]

theorem trades_insert_drop (workspace : Workspace α)
    (names : (workspace.objects.map Prod.fst).Nodup) (name : String) (object : Object α) :
    Trades ((object, workspace.objects), workspace.pool)
      (((workspace.drop name).2.insert name object).objects,
        ((workspace.drop name).2.insert name object).pool) := by
  have ended := (trades_drop names name).beside object
  rw [objects_insert_drop]
  exact (Trades.swap _ _ _).trans (ended.trans (Trades.swap _ _ _))

theorem Settled.drop (settled : workspace.Settled) (name : String) :
    (workspace.drop name).2.Settled where
  names := by
    rw [objects_drop]
    exact names_erase settled.names name
  lends := (trades_drop settled.names name).lends settled.lends

variable [BEq α]

theorem Settled.create (settled : workspace.Settled) {recipe : Object.Recipe α}
    {next : Workspace α} (h : workspace.create name recipe = .ok next) : next.Settled := by
  unfold Workspace.create at h
  rcases made : Object.make workspace.pool recipe with e | ⟨object, pool⟩
  · rw [made] at h
    cases h
  · rw [made] at h
    cases h
    -- The new object is there before the one that had the name ends.
    have first := (Object.trades_make made).beside workspace.objects
    have last := trades_insert_drop ⟨pool, workspace.objects⟩ settled.names name object
    refine ⟨?_, (first.trans last).lends settled.lends⟩
    show (((({ workspace with pool := pool }.drop name).2.insert name object).objects).map _).Nodup
    rw [objects_insert_drop, objects_drop]
    exact names_cons_erase settled.names name object

theorem Settled.act (settled : workspace.Settled) (name : String) (action : Object.Action α) :
    (workspace.act name action).2.Settled := by
  unfold Workspace.act
  split
  · exact settled
  · rename_i object found
    refine ⟨names_cons_erase settled.names name _, ?_⟩
    have trades := (trades_find? settled.names found).trans
      ((object.trades_perform workspace.pool action).beside (workspace.erase name).objects)
    exact trades.lends settled.lends

theorem Settled.step (settled : workspace.Settled) (step : Step α) :
    (workspace.step step).Settled := by
  cases step with
  | create name recipe =>
    simp only [Workspace.step]
    cases made : workspace.create name recipe with
    | error e => exact settled
    | ok next => exact settled.create made
  | act name action => exact settled.act name action
  | drop name => exact settled.drop name
  | trim => exact ⟨settled.names, settled.lends.trim⟩

theorem Settled.run (settled : workspace.Settled) (steps : List (Step α)) :
    (workspace.run steps).Settled := by
  induction steps generalizing workspace with
  | nil => exact settled
  | cons step rest ih => exact ih (settled.step step)

omit [Element α] [BEq α] in
/-- The pool counts as many arrays out as there are objects that hold one. -/
theorem Settled.outstanding (settled : workspace.Settled) :
    workspace.pool.counters.rented = workspace.pool.counters.returned + workspace.holderCount := by
  rw [settled.lends.outstanding, holderCount_eq]

/-! ### Disposed objects -/

/-- An operation leaves its object under the name. -/
theorem find?_act (found : workspace.find? name = some object) (action : Object.Action α) :
    (workspace.act name action).2.find? name = some (object.perform workspace.pool action).2.1 ∧
      (workspace.act name action).2.pool = (object.perform workspace.pool action).2.2 := by
  unfold Workspace.act
  rw [found]
  exact ⟨List.lookup_cons_self, rfl⟩

/-- What was disposed of once gives the pool nothing when it is disposed of again, nor when it
ends. -/
theorem disposed_twice (found : workspace.find? name = some object) {action : Object.Action α}
    (way : object.disposal = some action) :
    ((workspace.act name action).2.act name action).2.pool = (workspace.act name action).2.pool ∧
      ((workspace.act name action).2.drop name).2.pool = (workspace.act name action).2.pool := by
  obtain ⟨nothing, again⟩ := Object.disposed way workspace.pool
  obtain ⟨once, -⟩ := find?_act found action
  constructor
  · rw [(find?_act once action).2]
    exact Object.dispose_of_nothing again nothing _
  · rw [Workspace.drop, once]
    exact Object.drop_of_nothing nothing _

/-! ### The end of all objects -/

omit [BEq α] in
/-- Ending all objects ends those of their names, one after the other. -/
theorem dropAll_eq (workspace : Workspace α) :
    workspace.dropAll.2 =
      ((workspace.objects.map Prod.fst).mergeSort fun a b => !(b < a)).foldl
        (fun workspace name => (workspace.drop name).2) workspace := by
  refine (List.foldl_hom Prod.snd fun state name => ?_).symm
  obtain ⟨lent, workspace⟩ := state
  dsimp only
  rcases workspace.drop name with ⟨_ | _ | cells, next⟩
  all_goals rfl

omit [BEq α] in
theorem Settled.drops (settled : workspace.Settled) (names : List String) :
    (names.foldl (fun workspace name => (workspace.drop name).2) workspace).Settled ∧
      ∀ entry ∈ (names.foldl (fun workspace name => (workspace.drop name).2) workspace).objects,
        entry ∈ workspace.objects ∧ entry.1 ∉ names := by
  induction names generalizing workspace with
  | nil => exact ⟨settled, fun entry member => ⟨member, by simp⟩⟩
  | cons name rest ih =>
    obtain ⟨last, left⟩ := ih (settled.drop name)
    refine ⟨last, fun entry member => ?_⟩
    obtain ⟨before, other⟩ := left entry member
    rw [objects_drop] at before
    obtain ⟨there, not_this⟩ := List.mem_filter.1 before
    refine ⟨there, fun named => ?_⟩
    rcases List.mem_cons.1 named with this | later
    · exact bne_iff_ne.1 not_this this
    · exact other later

omit [BEq α] in
/-- When all objects have ended, none is left and all arrays are back. -/
theorem Settled.dropAll (settled : workspace.Settled) :
    workspace.dropAll.2.objects = [] ∧
      workspace.dropAll.2.pool.counters.rented = workspace.dropAll.2.pool.counters.returned := by
  have drops := settled.drops ((workspace.objects.map Prod.fst).mergeSort fun a b => !(b < a))
  rw [← dropAll_eq] at drops
  obtain ⟨last, left⟩ := drops
  have none : workspace.dropAll.2.objects = [] := by
    refine List.eq_nil_iff_forall_not_mem.2 fun entry member => ?_
    obtain ⟨there, unnamed⟩ := left entry member
    exact unnamed (List.mem_mergeSort.2 (List.mem_map_of_mem there))
  refine ⟨none, ?_⟩
  rw [last.outstanding, holderCount, none]
  rfl

/-! ### Fixed-width values

Writing and reading a value are steps as any others, so that runs with them are runs. -/

section Typed

variable {τ : Type} [Layout τ] {bytes : Workspace UInt8} {name : String} {writer : Writer UInt8}

theorem find?_of_writer? (found : bytes.writer? name = some writer) :
    bytes.find? name = some (.ofWriter writer) := by
  unfold writer? at found
  split at found
  · rename_i there
    cases found
    exact there
  · cases found

/-- A value is written as its bytes are, or refused and nothing changes. -/
theorem writeValue_step (bytes : Workspace UInt8) (name : String) (order : ByteOrder) (value : τ) :
    (bytes.writeValue name order value).2 = bytes ∨
      (bytes.writeValue name order value).2 = bytes.step (.act name (.writer
        (.acquire (Layout.width τ) true (Layout.bytes order value)))) := by
  unfold writeValue
  cases found : bytes.writer? name with
  | none => exact .inl rfl
  | some writer =>
    cases fits : Layout.checkOrder τ order with
    | error e =>
      simp only [Writer.write, fits]
      exact .inl rfl
    | ok done =>
      refine .inr ?_
      simp only [Writer.write, fits, step, Workspace.act, find?_of_writer? found]
      rfl

/-- Stepping over cells that are there does not grow the writer. -/
theorem advance_of_free {count : Nat} (room : count ≤ writer.freeCapacity) (pool : Pool UInt8) :
    writer.advance count pool = ({ writer with position := writer.position + count }, pool) := by
  rw [Writer.advance, Writer.ensureFree, if_neg (Nat.not_lt_of_le room)]

/-- A value is read from memory that is there, which the cursor may step over. -/
theorem readValue_step (bytes : Workspace UInt8) (name : String) (order : ByteOrder)
    (movePosition : Bool) :
    (@readValue τ _ bytes name order movePosition).2 = bytes ∨
      ∃ count, (@readValue τ _ bytes name order movePosition).2 =
        bytes.step (.act name (.writer (.advance count))) := by
  unfold readValue
  cases found : bytes.writer? name with
  | none => exact .inl rfl
  | some writer =>
    cases long : Layout.checkLength τ writer.freeCapacity with
    | error e =>
      simp only [Writer.read, long]
      exact .inl rfl
    | ok done =>
      cases fits : Layout.checkOrder τ order with
      | error e =>
        simp only [Writer.read, long, fits]
        exact .inl rfl
      | ok done =>
        have room : Layout.width τ ≤ writer.freeCapacity := by
          unfold Layout.checkLength at long
          split at long
          · cases long
          · omega
        have here (count : Nat) (free : count ≤ writer.freeCapacity) :
            bytes.step (.act name (.writer (.advance count))) =
              bytes.insert name
                (.ofWriter { writer with position := writer.position + count }) := by
          simp only [step, Workspace.act, find?_of_writer? found, Object.perform, Writer.perform,
            advance_of_free free]
          rfl
        refine .inr ?_
        simp only [Writer.read, long, fits]
        cases movePosition with
        | true => exact ⟨Layout.width τ, (here _ room).symm⟩
        | false => exact ⟨0, (here 0 (Nat.zero_le _)).symm⟩

end Typed

/-! ### Runs from the start -/

/-- For every usable configuration and every run of steps — objects of all kinds made, used,
disposed of, used again and ended, in any order — the pool counts as many arrays out as there are
objects that hold one, and each of them holds one lease at most. What was disposed of leaves the
pool as it is from then on, when it is disposed of again and when it ends; and with all objects
gone all arrays are back. -/
theorem returns_every_lease {config : Pool.Config} (valid : config.validate = .ok ())
    (steps : List (Step α)) :
    let last := ({ pool := Pool.ofValid config valid } : Workspace α).run steps
    last.pool.counters.rented = last.pool.counters.returned + last.holderCount ∧
    (∀ entry ∈ last.objects, (Holder.leases entry.2 : List (Lease α)).length ≤ 1) ∧
    (∀ name object action, last.find? name = some object → object.disposal = some action →
      let once := (last.act name action).2
      (once.act name action).2.pool = once.pool ∧ (once.drop name).2.pool = once.pool) ∧
    (last.objects = [] → last.pool.counters.rented = last.pool.counters.returned) ∧
    last.dropAll.2.objects = [] ∧
    last.dropAll.2.pool.counters.rented = last.dropAll.2.pool.counters.returned := by
  intro last
  have first : ({ pool := Pool.ofValid config valid } : Workspace α).Settled :=
    ⟨List.nodup_nil, Pool.lends_ofValid config valid⟩
  have settled : last.Settled := first.run steps
  refine ⟨settled.outstanding, ?_, ?_, ?_, settled.dropAll⟩
  · intro entry _
    rcases entry.2.leases_cases with ⟨none, -⟩ | ⟨lease, one, -⟩
    · rw [none]
      exact Nat.zero_le _
    · rw [one]
      exact Nat.le_refl _
  · intro name object action found way
    exact disposed_twice found way
  · intro gone
    rw [settled.outstanding, holderCount, gone]
    rfl

/-- A writer that outgrows lent memory, is disposed of and used again; a list that is trimmed to
nothing; a builder; and a lease that takes the name of a ring. -/
theorem returns_every_lease_reused :
    let steps : List (Step UInt8) :=
      [.create "writer" (.lentWriter #[1, 2] none), .act "writer" (.writer (.appendRun #[3, 4, 5])),
        .act "writer" (.writer .dispose), .act "writer" (.writer (.append 6)),
        .create "list" (.list 3), .act "list" (.list .trim), .create "ring" (.ring 4),
        .create "builder" (.builder 2), .act "builder" (.builder (.add 7)),
        .act "builder" (.builder .dispose), .create "ring" (.lease 40)]
    let last := ({ pool := Pool.ofValid ⟨32, 1, true⟩ rfl } : Workspace UInt8).run steps
    last.pool.counters.rented = last.pool.counters.returned + last.holderCount ∧
      last.pool.counters.rented = 6 ∧ last.pool.counters.returned = 4 := by
  intro steps last
  obtain ⟨outstanding, -⟩ := returns_every_lease
    (rfl : (Pool.Config.mk 32 1 true).validate = .ok ()) steps
  exact ⟨outstanding, by decide +kernel, by decide +kernel⟩

end Workspace

end PooledBuffers
