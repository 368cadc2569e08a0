import PooledBuffers.Proofs.Regions.Refinement
import PooledBuffers.Proofs.Writer.Lent

/-!
# A region store in lent memory

A store makes room up to the new end of what is in use before it moves or stores anything. Only the
first bytes of a region come in two steps: the region gets its header first, and then room is made
for the bytes, so that a growth in the second step finds the header in the old memory.

* `RegionStore.Edits`, `RegionStore.Extends` — from one state of a store to another in the memory
  that is there, and up to a new end;
* `RegionStore.withHeader` — what an append has done when it comes to make room for the bytes;
* `RegionStore.tenant`, `RegionStore.lawful_tenant` — a store in memory that its caller lends;
* `RegionStore.lent_memory_until_growth` — what writers and stores leave in lent memory.
-/

namespace PooledBuffers.RegionStore

open PooledBuffers.Regions
open Writer (Stays Grows Uses Tenant)

variable {store mid next : RegionStore} {pool rest : Pool UInt8} {length : Nat}

/-- A computation that succeeds is one that succeeds and another that goes on from there. -/
theorem ok_of_bind {β γ : Type} {first : Except Error β} {onward : β → Except Error γ} {last : γ}
    (done : (first >>= onward) = .ok last) :
    ∃ value, first = .ok value ∧ onward value = .ok last := by
  cases first with
  | error refusal => exact nomatch done
  | ok value => exact ⟨value, rfl, done⟩

/-! ## In the memory that is there -/

/-- One store comes from another by edits of the memory that is there. -/
structure Edits (store next : RegionStore) : Prop where
  eq : next = { store with writer := next.writer }
  uses : Uses 0 store.writer next.writer

/-- One store comes from another by an operation that makes room up to the new end of what is in use
before it stores anything. -/
structure Extends (store next : RegionStore) : Prop where
  uses : Uses next.usedEnd store.writer next.writer
  grows : store.writer.capacity < next.usedEnd → Grows store.writer next.writer

namespace Edits

theorem refl (store : RegionStore) : Edits store store := ⟨rfl, .refl _⟩

theorem trans (first : Edits store mid) (second : Edits mid next) : Edits store next := by
  refine ⟨?_, first.uses.trans second.uses⟩
  rw [second.eq, first.eq]

theorem usedEnd_eq (edits : Edits store next) : next.usedEnd = store.usedEnd := by
  rw [edits.eq]
  rfl

/-- A loop of edits is an edit. -/
theorem foldl {ι : Type} {round : RegionStore → ι → RegionStore}
    (each : ∀ store i, Edits store (round store i)) (list : List ι) :
    ∀ store, Edits store (list.foldl round store) := by
  induction list with
  | nil =>
    intro store
    exact refl store
  | cons i rest ih =>
    intro store
    exact (each store i).trans (ih (round store i))

theorem put (store : RegionStore) (place : Nat) (run : Array UInt8) :
    Edits store (store.put place run) :=
  ⟨rfl, (Writer.stays_edit store.writer (by simp) _).uses 0⟩

theorem putHandle (store : RegionStore) (place : Nat) (handle : UInt32) :
    Edits store (store.putHandle place handle) :=
  put store _ _

theorem putHeader (store : RegionStore) (offset : Nat) (header : Header) :
    Edits store (store.putHeader offset header) :=
  put store _ _

theorem updateOthers (store : RegionStore) (handle : UInt32) (f : Header → Header) :
    Edits store (store.updateOthers handle f) := by
  refine foldl (fun store offset => ?_) _ store
  show Edits store (if _ then _ else _)
  split
  · exact refl store
  · exact putHeader store _ _

theorem raiseOthers (store : RegionStore) (handle : UInt32) (stop : Nat) (run : Array UInt8) :
    Edits store (store.raiseOthers handle stop run) := by
  unfold RegionStore.raiseOthers
  split
  · exact refl store
  · exact updateOthers store _ _

end Edits

theorem eq_of_move {start size target : Nat}
    (done : store.move start size target pool = .ok (next, rest)) :
    next = { store with writer := next.writer } ∧
      store.writer.moveWithin start size target false pool = .ok (next.writer, rest) := by
  obtain ⟨⟨writer, _⟩, moved, made⟩ := ok_of_bind done
  cases made
  exact ⟨rfl, moved⟩

/-- A move down needs no more memory than there is. -/
theorem Edits.move {start size target : Nat} (down : target ≤ start)
    (done : store.move start size target pool = .ok (next, rest)) : Edits store next := by
  obtain ⟨same, moved⟩ := eq_of_move done
  have uses := Writer.uses_moveWithin moved
  have enough := store.writer.moveEnd_le_capacity size down
  exact ⟨same, fun _ => uses.stays enough, uses.leaves⟩

/-! ## Up to a new end -/

namespace Extends

theorem refl (fits : store.usedEnd ≤ store.writer.capacity) : Extends store store :=
  ⟨(Uses.refl store.writer).mono (Nat.zero_le _), fun short => absurd short (Nat.not_lt.2 fits)⟩

theorem of_end (ends : next.usedEnd = length) (uses : Uses length store.writer next.writer)
    (grows : store.writer.capacity < length → Grows store.writer next.writer) :
    Extends store next :=
  ⟨ends.symm ▸ uses, fun short => grows (ends ▸ short)⟩

theorem uses_next (first : Extends store mid) (same : next.usedEnd = mid.usedEnd)
    (second : Uses mid.usedEnd mid.writer next.writer) : Extends store next where
  uses := by
    rw [same]
    exact first.uses.trans second
  grows short := (first.grows (same ▸ short)).uses second

theorem edits (first : Extends store mid) (second : Edits mid next) : Extends store next :=
  first.uses_next second.usedEnd_eq (second.uses.mono (Nat.zero_le _))

/-- The cursor is put behind what is in use, for which there is room already. -/
theorem syncPosition (first : Extends store mid) (pool : Pool UInt8) :
    Extends store (mid.syncPosition pool).1 :=
  first.uses_next rfl (Writer.uses_advanceTo mid.writer mid.usedEnd pool)

/-- A move up to the new end of what is in use. -/
theorem move {start size target : Nat} (done : store.move start size target pool = .ok (mid, rest))
    (ends : next.usedEnd = target + size) (same : next.writer = mid.writer) :
    Extends store next := by
  obtain ⟨-, moved⟩ := eq_of_move done
  rw [← same] at moved
  have uses := (Writer.uses_moveWithin moved).mono (store.writer.moveEnd_le start size target)
  exact of_end ends uses (Writer.grows_moveWithin moved)

theorem growHandles (fits : store.usedEnd ≤ store.writer.capacity) {needed : Nat}
    (done : store.growHandles needed pool = .ok (next, rest)) : Extends store next := by
  unfold RegionStore.growHandles at done
  by_cases enough : needed ≤ store.handleCapacity
  · rw [if_pos enough] at done
    cases done
    exact refl fits
  · rw [if_neg enough] at done
    obtain ⟨⟨mid, last⟩, moved, made⟩ := ok_of_bind done
    cases made
    obtain ⟨same, -⟩ := eq_of_move moved
    refine move moved ?_ rfl
    rw [same]
    simp only [usedEnd, dataStart]
    omega

theorem growHeaders (fits : store.usedEnd ≤ store.writer.capacity) {needed : Nat}
    (done : store.growHeaders needed pool = .ok (next, rest)) : Extends store next := by
  unfold RegionStore.growHeaders at done
  by_cases enough : needed ≤ store.headerCapacity
  · rw [if_pos enough] at done
    cases done
    exact refl fits
  · rw [if_neg enough] at done
    obtain ⟨⟨mid, last⟩, moved, made⟩ := ok_of_bind done
    cases made
    obtain ⟨same, -⟩ := eq_of_move moved
    refine move moved ?_ rfl
    rw [same]
    rfl

theorem addRegion (fits : store.usedEnd ≤ store.writer.capacity) {id : Nat}
    (done : store.addRegion pool = .ok (id, next, rest)) : Extends store next := by
  by_cases full : maxWord < store.regionCount + 1
  · rw [(addRegion_full pool full).1] at done
    exact nomatch done
  unfold RegionStore.addRegion at done
  simp only [if_neg full] at done
  obtain ⟨⟨wide, _⟩, grown, made⟩ := ok_of_bind done
  cases made
  have counted : Extends store { wide with regionCount := store.regionCount + 1 } :=
    (growHandles fits grown).uses_next rfl ((Uses.refl wide.writer).mono (Nat.zero_le _))
  exact (counted.edits (Edits.putHandle _ _ _)).syncPosition _

theorem openRegion (fits : store.usedEnd ≤ store.writer.capacity) {id : Nat}
    {found : UInt32 × Header} (done : store.openRegion id pool = .ok (found, next, rest)) :
    Extends store next ∧ found.2.dataEnd ≤ next.dataLength := by
  unfold RegionStore.openRegion at done
  obtain ⟨⟨wide, _⟩, grown, done⟩ := ok_of_bind done
  obtain ⟨handle, -, done⟩ := ok_of_bind done
  obtain ⟨offset, counted, made⟩ := ok_of_bind done
  cases made
  have headed : Extends store { wide with headerLength := wide.headerLength + headerSize } :=
    (growHeaders fits grown).uses_next rfl ((Uses.refl wide.writer).mono (Nat.zero_le _))
  refine ⟨(headed.edits (Edits.putHeader _ _ _)).edits (Edits.putHandle _ _ _), ?_⟩
  unfold checkWord at counted
  split at counted
  · exact nomatch counted
  · rename_i small
    cases counted
    show (UInt32.ofNat wide.dataLength).toNat + 0 ≤ wide.dataLength
    rw [toNat_word (Nat.not_lt.1 small)]
    exact Nat.le_refl _

/-- A run that is put into the data area makes room for all of it first. -/
theorem spread {stop : Nat} {run : Array UInt8} (inside : stop ≤ store.dataLength)
    (done : store.spread stop run pool = .ok (next, rest)) :
    Extends store next ∧ next.usedEnd = store.usedEnd + run.size := by
  obtain ⟨⟨moved, _⟩, shifted, made⟩ := ok_of_bind done
  cases made
  obtain ⟨same, moves⟩ := eq_of_move shifted
  have ends : ({ moved.put (store.dataStart + stop) run with
      dataLength := moved.dataLength + run.size } : RegionStore).usedEnd =
      store.usedEnd + run.size := by
    rw [same]
    simp only [usedEnd, dataStart, RegionStore.put]
    omega
  -- The move ends where the room does, so that it finds all that it needs.
  have target : store.dataStart + stop + run.size + (store.usedEnd - (store.dataStart + stop)) ≤
      store.usedEnd + run.size := by
    unfold usedEnd
    omega
  have behind : Uses (store.usedEnd + run.size)
      (store.writer.advanceTo (store.usedEnd + run.size) pool).1
      (moved.put (store.dataStart + stop) run).writer := by
    have carried := (Writer.uses_moveWithin moves).mono
      (Nat.le_trans (Writer.moveEnd_le _ _ _ _) target)
    exact carried.trans ((Edits.put moved _ run).uses.mono (Nat.zero_le _))
  refine ⟨of_end ends ?_ fun short => ?_, ends⟩
  · exact (Writer.uses_advanceTo store.writer _ pool).trans behind
  · exact (Writer.grows_advanceTo short pool).uses behind

theorem insert {handle : UInt32} {header : Header} {run : Array UInt8} {items : Nat}
    (inside : header.dataEnd ≤ store.dataLength)
    (done : store.insert handle header run items pool = .ok (next, rest)) :
    Extends store next ∧ next.usedEnd = store.usedEnd + run.size := by
  obtain ⟨⟨wide, _⟩, widened, made⟩ := ok_of_bind done
  cases made
  obtain ⟨widens, ends⟩ := spread inside widened
  have raised := Edits.raiseOthers wide handle header.dataEnd run
  have headed := raised.trans
    (Edits.putHeader _ handle.toNat (header.extend (UInt32.ofNat run.size) items))
  exact ⟨(widens.edits headed).syncPosition _, headed.usedEnd_eq.trans ends⟩

end Extends

/-! ## Taking bytes out -/

/-- One store comes from another by edits, with no more in use than before. -/
structure Shrinks (store next : RegionStore) : Prop where
  uses : Uses 0 store.writer next.writer
  usedEnd_le : next.usedEnd ≤ store.usedEnd

theorem Shrinks.trans (first : Shrinks store mid) (second : Shrinks mid next) :
    Shrinks store next :=
  ⟨first.uses.trans second.uses, Nat.le_trans second.usedEnd_le first.usedEnd_le⟩

theorem Edits.shrinks (edits : Edits store next) : Shrinks store next :=
  ⟨edits.uses, Nat.le_of_eq edits.usedEnd_eq⟩

theorem Shrinks.extends (shrinks : Shrinks store next)
    (fits : store.usedEnd ≤ store.writer.capacity) : Extends store next where
  uses := shrinks.uses.mono (Nat.zero_le _)
  grows short := absurd (Nat.lt_of_lt_of_le short shrinks.usedEnd_le) (Nat.not_lt.2 fits)

theorem Shrinks.removeData {handle : UInt32} {removed : Header}
    (done : store.removeData handle removed pool = .ok (next, rest)) : Shrinks store next := by
  unfold RegionStore.removeData at done
  by_cases empty : removed.dataLength = 0
  · rw [if_pos empty] at done
    cases done
    exact (Edits.refl store).shrinks
  · rw [if_neg empty] at done
    obtain ⟨⟨moved, _⟩, carried, made⟩ := ok_of_bind done
    cases made
    have edits := Edits.move (Nat.le_add_right _ _) carried
    have shorter : Shrinks store
        { moved with dataLength := moved.dataLength - removed.dataLength.toNat } := by
      refine ⟨edits.uses, ?_⟩
      rw [← edits.usedEnd_eq]
      simp only [usedEnd, dataStart]
      omega
    exact shorter.trans (Edits.updateOthers _ handle _).shrinks

theorem Shrinks.removeHeader {handle : UInt32}
    (done : store.removeHeader handle pool = .ok (next, rest)) : Shrinks store next := by
  unfold RegionStore.removeHeader at done
  obtain ⟨⟨moved, _⟩, carried, made⟩ := ok_of_bind done
  cases made
  have edits := Edits.move (Nat.le_add_right _ _) carried
  have shorter : Shrinks store { moved with headerLength := moved.headerLength - headerSize } :=
    ⟨edits.uses, Nat.le_of_eq edits.usedEnd_eq⟩
  refine shorter.trans (Edits.foldl (fun store other => ?_) _ _).shrinks
  simp only
  split
  · exact Edits.putHandle _ _ _
  · exact Edits.refl _

theorem Extends.clear (fits : store.usedEnd ≤ store.writer.capacity) {id : Nat}
    (done : store.clear id pool = .ok (next, rest)) : Extends store next := by
  obtain ⟨found, looked, done⟩ := ok_of_bind done
  cases found with
  | none =>
    cases done
    exact refl fits
  | some found =>
    obtain ⟨⟨without, _⟩, removed, done⟩ := ok_of_bind done
    obtain ⟨⟨headless, _⟩, removed', made⟩ := ok_of_bind done
    cases made
    -- Data and headers move down only, so that nothing is in use that was not before.
    have shrinks := (Shrinks.removeData removed).trans (Shrinks.removeHeader removed')
    have closed := shrinks.trans (Edits.putHandle headless (handleOffset id) emptyHandle).shrinks
    exact (closed.extends fits).syncPosition _

/-! ## Putting bytes in -/

variable {table : Table} {id items : Nat} {run : Array UInt8}

/-- The store when a region has got its header, if there is room for one in memory. -/
def withHeader (store : RegionStore) (id : Nat) (pool : Pool UInt8) : RegionStore :=
  match store.locate id pool with
  | .ok (_, opened, _) => if opened.usedEnd ≤ store.writer.capacity then opened else store
  | .error _ => store

theorem Simulates.fits (simulates : Simulates (store, pool) table) :
    store.usedEnd ≤ store.writer.capacity := by
  obtain ⟨sheet, slots, settled, -, -⟩ := simulates
  have used : store.usedEnd = sheet.usedEnd := congrArg Sheet.usedEnd settled.sheet_eq
  rw [used]
  exact settled.length_le

/-- The bytes of a region that has a header lie in the data area. -/
theorem Simulates.dataEnd_le (simulates : Simulates (store, pool) table)
    {found : UInt32 × Header} (looked : store.header? id = .ok (some found)) :
    found.2.dataEnd ≤ store.dataLength := by
  obtain ⟨sheet, slots, settled, holds, fills⟩ := simulates
  have shows := settled.toShows
  obtain ⟨-, -, -, -, data⟩ := shows.fields
  rcases lookup_cases fills id with ⟨unknown, -⟩ | ⟨known, closed, -⟩ |
    ⟨k, slot, -, at_slot, rfl, -⟩
  · rw [(shows.find_unknown unknown).1] at looked
    exact nomatch looked
  · rw [(shows.find_closed holds known closed).1] at looked
    exact nomatch looked
  · rw [(shows.find_open holds at_slot).1] at looked
    cases looked
    have mem := List.mem_of_getElem? at_slot
    obtain ⟨-, -, -, stop⟩ := holds.toNat_header mem
    rw [stop, data]
    exact holds.packed.stop_le slot mem

theorem Simulates.locate (simulates : Simulates (store, pool) table) {found : UInt32 × Header}
    (located : store.locate id pool = .ok (found, mid, rest)) :
    Extends store mid ∧ found.2.dataEnd ≤ mid.dataLength := by
  obtain ⟨header, looked, done⟩ := ok_of_bind located
  cases header with
  | some header =>
    -- The region has a header already, and nothing is done.
    cases done
    exact ⟨Extends.refl simulates.fits, simulates.dataEnd_le looked⟩
  | none => exact Extends.openRegion simulates.fits done

/-- A header that there is room for is put into memory that stays. -/
theorem Simulates.stays_withHeader (simulates : Simulates (store, pool) table) (id : Nat) :
    Stays store.writer (store.withHeader id pool).writer := by
  unfold withHeader
  cases located : store.locate id pool with
  | error refusal => exact Stays.refl _
  | ok result =>
    obtain ⟨found, opened, rest⟩ := result
    show Stays store.writer (if _ then opened else store).writer
    split
    · rename_i enough
      exact (simulates.locate located).1.uses.stays enough
    · exact Stays.refl _

/-- An append that is not refused finds the region or opens it, and puts the bytes in. -/
theorem insert_of_appendItems {last : RegionStore × Pool UInt8}
    (done : store.appendItems id run items pool = .ok last) :
    ∃ found mid rest, store.locate id pool = .ok (found, mid, rest) ∧
      mid.insert found.1 found.2 run items rest = .ok last := by
  have short : run.size ≤ maxWord := by
    refine Nat.not_lt.1 fun long => ?_
    rw [(Shows.appendItems_long store pool id items long).1] at done
    exact nomatch done
  have fits : store.dataLength + run.size ≤ maxWord := by
    refine Nat.not_lt.1 fun full => ?_
    have beyond : maxWord < Size.add store.dataLength run.size :=
      Nat.lt_min.2 ⟨full, by decide⟩
    unfold RegionStore.appendItems checkWord at done
    rw [if_neg (Nat.not_lt.2 short), if_pos beyond] at done
    exact nomatch done
  rw [appendItems_eq short fits] at done
  obtain ⟨⟨found, mid, rest⟩, located, inserted⟩ := ok_of_bind done
  exact ⟨found, mid, rest, located, inserted⟩

/-! ## One operation -/

/-- Whether an operation gives the memory back. -/
def Action.isDispose : Action → Bool
  | .dispose => true
  | _ => false

theorem Action.eq_dispose {action : Action} (given : action.isDispose = true) :
    action = .dispose := by
  cases action with
  | dispose => rfl
  | _ => exact nomatch given

/-- The store when an operation comes to need more memory than there is. A region to which bytes are
appended has its header by then, if there was room for one; any other operation has done nothing
yet. -/
def atGrowth (store : RegionStore) (pool : Pool UInt8) : Action → RegionStore
  | .append id _ | @Action.appendValue _ _ id _ => store.withHeader id pool
  | _ => store

/-- What an operation does that has come from one store to another one when it makes room. -/
structure Performs (store begun next : RegionStore) : Prop where
  uses : Uses next.usedEnd store.writer next.writer
  grows : store.writer.capacity < next.usedEnd → Grows begun.writer next.writer

theorem Extends.performs (widens : Extends store next) : Performs store store next :=
  ⟨widens.uses, widens.grows⟩

/-- An operation that is refused finds the room that it needs. -/
theorem Performs.refl (fits : store.usedEnd ≤ store.writer.capacity) (begun : RegionStore) :
    Performs store begun store :=
  ⟨(Extends.refl fits).uses, fun short => absurd short (Nat.not_lt.2 fits)⟩

theorem Simulates.performs_appendItems (simulates : Simulates (store, pool) table) (id : Nat)
    (run : Array UInt8) (items : Nat) :
    Performs store (store.withHeader id pool)
      (Regions.answer (store, pool) (store.appendItems id run items pool)).2.1 := by
  cases done : store.appendItems id run items pool with
  | error refusal => exact Performs.refl simulates.fits _
  | ok last =>
    obtain ⟨next, rest'⟩ := last
    obtain ⟨found, mid, rest, located, inserted⟩ := insert_of_appendItems done
    obtain ⟨opens, inside⟩ := simulates.locate located
    obtain ⟨inserts, ends⟩ := Extends.insert inside inserted
    have later : mid.usedEnd ≤ next.usedEnd := by omega
    have header : store.withHeader id pool =
        if mid.usedEnd ≤ store.writer.capacity then mid else store := by
      unfold withHeader
      rw [located]
    refine ⟨(opens.uses.mono later).trans inserts.uses, fun short => ?_⟩
    rw [header]
    by_cases room : mid.usedEnd ≤ store.writer.capacity
    · -- The header is in the old memory, and the bytes are not.
      rw [if_pos room]
      exact inserts.grows ((opens.uses.stays room).capacity_eq.symm ▸ short)
    · rw [if_neg room]
      exact (opens.grows (Nat.not_le.1 room)).uses inserts.uses

theorem edits_setSpan {index : Nat} {value : UInt8} {result : Option RegionStore}
    (done : store.setSpan? id index value = .ok result) : Edits store (result.getD store) := by
  obtain ⟨⟨start, stop⟩, -, made⟩ := ok_of_bind done
  cases made
  show Edits store ((if index < stop - start then some _ else none).getD store)
  split
  · exact Edits.put store _ _
  · exact Edits.refl store

theorem Simulates.performs (simulates : Simulates (store, pool) table) {action : Action}
    (stays : action.isDispose = false) :
    Performs store (store.atGrowth pool action) (store.perform pool action).2.1 := by
  have fits := simulates.fits
  cases action with
  | addRegion =>
    show Performs store store _
    simp only [RegionStore.perform]
    cases done : store.addRegion pool with
    | error refusal => exact Performs.refl fits _
    | ok result => exact (Extends.addRegion fits done).performs
  | append id run => exact simulates.performs_appendItems id run 0
  | @appendValue τ _ id value =>
    show Performs store (store.withHeader id pool)
      (Regions.answer (store, pool) (store.appendValue id value pool)).2.1
    unfold RegionStore.appendValue
    cases Layout.checkOrder τ .big with
    | error refusal => exact Performs.refl fits _
    | ok => exact simulates.performs_appendItems id _ 1
  | setSpan id index value =>
    show Performs store store _
    simp only [RegionStore.perform]
    cases done : store.setSpan? id index value with
    | error refusal => exact Performs.refl fits _
    | ok result => exact ((edits_setSpan done).shrinks.extends fits).performs
  | clear id =>
    show Performs store store (Regions.answer (store, pool) (store.clear id pool)).2.1
    cases done : store.clear id pool with
    | error refusal => exact Performs.refl fits _
    | ok result => exact (Extends.clear fits done).performs
  | dispose => exact nomatch stays

theorem Simulates.stays_atGrowth (simulates : Simulates (store, pool) table) (action : Action) :
    Stays store.writer (store.atGrowth pool action).writer := by
  cases action with
  | append id run => exact simulates.stays_withHeader id
  | appendValue id value => exact simulates.stays_withHeader id
  | _ => exact Stays.refl _

/-! ## All operations -/

/-- A store and its pool, with the operations of stores. An operation needs the memory that is in
use after it. -/
def tenant : Tenant UInt8 (RegionStore × Pool UInt8) Action where
  writer state := state.1.writer
  step state action := (state.1.perform state.2 action).2
  Outgrows state action :=
    state.1.writer.capacity < (state.1.perform state.2 action).2.1.usedEnd
  isDispose := Action.isDispose
  atGrowth state action := (state.1.atGrowth state.2 action).writer

instance (state : RegionStore × Pool UInt8) (action : Action) :
    Decidable (tenant.Outgrows state action) :=
  inferInstanceAs (Decidable (_ < _))

theorem lawful_tenant : tenant.Lawful fun state => ∃ table, Simulates state table where
  next action := by
    rintro ⟨table, simulates⟩
    exact ⟨_, (simulates.perform action).2.1⟩
  stays := by
    rintro state action ⟨table, simulates⟩ - room stays
    exact (simulates.performs stays).uses.stays (Nat.not_lt.1 room)
  fills action := by
    rintro ⟨table, simulates⟩ -
    exact simulates.stays_atGrowth action
  grows := by
    rintro state action ⟨table, simulates⟩ - outgrown
    have stays : action.isDispose = false := by
      refine Bool.eq_false_iff.2 fun given => ?_
      obtain rfl := Action.eq_dispose given
      exact Nat.not_lt_zero _ outgrown
    exact (simulates.performs stays).grows outgrown
  leaves := by
    rintro state action ⟨table, simulates⟩ left
    by_cases given : action.isDispose = true
    · obtain rfl := Action.eq_dispose given
      exact Writer.leaves_dispose state.1.writer state.2
    · exact (simulates.performs (Bool.eq_false_iff.2 given)).uses.leaves left
  disposes := by
    intro state action given
    obtain rfl := Action.eq_dispose given
    exact ⟨Writer.leaves_dispose state.1.writer state.2,
      Writer.Backing.isGrown_dispose state.1.writer.backing state.2⟩

/-- Memory that a caller lends, to a writer or to a store of regions, is theirs until an operation
needs more of it or gives it back, and is never written again after that. -/
theorem lent_memory_until_growth {α : Type} [Element α] (cells : Array α) (minGrow : Option Nat)
    (pool : Pool α) (bytes : Array UInt8) (bytePool : Pool UInt8)
    (reachable : bytePool.Reachable) :
    Writer.tenant.Borrows ({ Writer.onMemory cells with minGrow := minGrow }, pool) ∧
      tenant.Borrows (onMemory bytes, bytePool) := by
  refine ⟨Writer.borrows_onMemory cells minGrow pool, ?_⟩
  exact lawful_tenant.borrows ⟨[], (Start.memory bytes).simulates reachable.sound⟩ rfl

/-- Two cells for a writer that comes to need three, and sixteen bytes for a store that has a region
to which four are appended. -/
theorem lent_memory_until_growth_outgrown :
    (Pool.standard : Pool UInt8).Reachable ∧
      (∃ last, Writer.tenant.writer (Writer.tenant.run
            ({ Writer.onMemory #[(1 : UInt8), 2] with minGrow := some 6 }, Pool.standard)
            ([.append 7] ++ [.appendRun #[8, 9], .set 0 5, .dispose, .append 6])) = last ∧
        last.isGrown = true ∧ last.caller = some #[7, 2]) ∧
      ∃ last, tenant.writer (tenant.run (onMemory (.replicate 16 0xEE), Pool.standard)
            ([.addRegion] ++ [.append 0 #[1, 2, 3, 4], .append 0 #[5]])) = last ∧
        last.isGrown = true ∧ last.caller = some (.replicate 16 0) := by
  obtain ⟨writer, store⟩ := lent_memory_until_growth #[(1 : UInt8), 2] (some 6) Pool.standard
    (.replicate 16 0xEE) Pool.standard Pool.reachable_standard
  have written := writer.left [.append 7] (.appendRun #[8, 9]) [.set 0 5, .dispose, .append 6]
    (by decide +kernel) (.inl (by decide +kernel))
  have stored := store.left [.addRegion] (.append 0 #[1, 2, 3, 4]) [.append 0 #[5]]
    (by decide +kernel) (.inl (by decide +kernel))
  refine ⟨Pool.reachable_standard, ⟨_, rfl, ?_, ?_⟩, _, rfl, ?_, ?_⟩
  · exact (writer.grown_iff _).2 (by decide +kernel)
  · exact written.trans (by decide +kernel)
  · exact (store.grown_iff _).2 (by decide +kernel)
  · exact stored.trans (by decide +kernel)

/-- What an operation has stored when it comes to grow the memory is stored in lent memory: the
first two of three elements that are appended one by one, and the header and handle of a region
whose first bytes do not fit. -/
theorem lent_memory_touched_by_growth :
    let writer : Writer UInt8 := Writer.onMemory #[8, 9]
    let written := (writer.perform Pool.standard (.appendEach #[1, 2, 3])).2.1
    let store := ((onMemory (.replicate 16 0xEE)).run Pool.standard [.addRegion]).2
    let stored := (store.1.perform store.2 (.append 0 #[1, 2, 3, 4])).2.1
    (writer.isGrown = false ∧ written.isGrown = true ∧ written.caller = some #[1, 2] ∧
      written.caller ≠ some writer.cells) ∧
      store.1.writer.isGrown = false ∧ stored.writer.isGrown = true ∧
      stored.writer.caller = some (.replicate 16 0) ∧
      stored.writer.caller ≠ some store.1.writer.cells := by
  decide +kernel

end PooledBuffers.RegionStore
