import PooledBuffers.Proofs.Ring.Window
import PooledBuffers.Proofs.Sequences
import PooledBuffers.Proofs.Writer.Memory
import PooledBuffers.Ring.Action

/-!
# A ring keeps the newest elements

A ring holds the last elements that were added to it, as many as it has slots, and all its views
show them in the order of their coming. Where its memory is from makes no difference, not even to
what lies in its slots.

* `Ring.lent`, `Ring.perform_lent` — a ring on rented memory does what one on lent memory does;
* `Ring.Holds` — the elements of a ring, by the slots of its window;
* `Ring.Holds.views` — what the views of a ring show;
* `Ring.Holds.perform` — one operation; `Ring.keeps_newest` — all runs of operations.
-/

namespace PooledBuffers

variable {α : Type}

/-! ## Sequences -/

/-- The last `count` elements of a list, or all of them if there are fewer. -/
def newest (count : Nat) (all : List α) : List α := all.drop (all.length - count)

@[simp] theorem length_newest (count : Nat) (all : List α) :
    (newest count all).length = min all.length count := by
  simp only [newest, List.length_drop]
  omega

theorem newest_of_le {count : Nat} {all : List α} (short : all.length ≤ count) :
    newest count all = all := by
  rw [newest, Nat.sub_eq_zero_of_le short, List.drop_zero]

/-- Behind any other elements, the newest ones are the same. -/
theorem newest_append_of_le {count : Nat} (before : List α) {all : List α}
    (long : count ≤ all.length) : newest count (before ++ all) = newest count all := by
  have past : (before ++ all).length - count = before.length + (all.length - count) := by
    rw [List.length_append]
    omega
  rw [newest, past, List.drop_append, List.drop_eq_nil_of_le (Nat.le_add_right _ _),
    Nat.add_sub_cancel_left, List.nil_append, newest]

/-- What is forgotten before more elements come is not among the newest ones afterwards. -/
theorem newest_newest_append (count : Nat) (all more : List α) :
    newest count (newest count all ++ more) = newest count (all ++ more) := by
  by_cases short : all.length ≤ count
  · rw [newest_of_le short]
  · have split : all ++ more = all.take (all.length - count) ++ (newest count all ++ more) := by
      rw [← List.append_assoc, newest, List.take_append_drop]
    have long : count ≤ (newest count all ++ more).length := by
      rw [List.length_append, length_newest]
      omega
    rw [split, newest_append_of_le _ long]

/-- The list with its last `count` elements exchanged for others. -/
def exchange (count : Nat) (all others : List α) : List α :=
  all.take (all.length - count) ++ others

theorem newest_exchange {count : Nat} {all others : List α}
    (same : others.length = (newest count all).length) :
    newest count (exchange count all others) = others := by
  rw [length_newest] at same
  by_cases short : all.length ≤ count
  · rw [exchange, Nat.sub_eq_zero_of_le short, List.take_zero, List.nil_append,
      newest_of_le (by omega)]
  · rw [exchange, newest_append_of_le _ (by omega), newest, Nat.sub_eq_zero_of_le (by omega),
      List.drop_zero]

theorem exchange_newest (count : Nat) (all : List α) :
    exchange count all (newest count all) = all :=
  List.take_append_drop _ _

/-- A store at an index that no element has changes nothing. -/
theorem exchange_set_of_le {count : Nat} {all : List α} {index : Nat}
    (outside : (newest count all).length ≤ index) (value : α) :
    exchange count all ((newest count all).set index value) = all := by
  rw [List.set_eq_of_length_le outside, exchange_newest]

/-! ## Halves -/

namespace Halves

theorem get?_eq (halves : Halves α) (index : Nat) :
    halves.get? index = halves.toArray[index]? := by
  rw [get?, toArray, Array.getElem?_append]

/-- Storing at an index is storing into the sequence; it is refused outside. -/
theorem set?_spec (halves : Halves α) (index : Nat) (value : α) :
    match halves.set? index value with
    | some next => next.toArray = halves.toArray.setIfInBounds index value
    | none => halves.toArray.size ≤ index := by
  unfold set? toArray
  by_cases first : index < halves.first.size
  · rw [if_pos first]
    exact (Array.setIfInBounds_append_left first).symm
  · rw [if_neg first]
    have behind : halves.first.size ≤ index := Nat.le_of_not_lt first
    by_cases second : index < halves.length
    · rw [if_pos second]
      exact (Array.setIfInBounds_append_right behind).symm
    · rw [if_neg second, Array.size_append]
      exact Nat.le_of_not_lt second

end Halves

namespace Ring

/-! ## Rented and lent memory -/

/-- The ring on lent memory with the same slots, which hold the same. -/
def lent (ring : Ring α) : Ring α := { ring with memory := .borrowed ring.cells }

section Lent

variable {ring : Ring α} (fits : ring.memory.Fits)

include fits

/-- Writing over slots does the same in rented as in lent memory. -/
theorem lent_overwrite (window : Window) (start : Nat) (run : Array α) :
    lent ⟨ring.memory.edit (Storage.overwrite · start run), window⟩ =
      ⟨ring.lent.memory.edit (Storage.overwrite · start run), window⟩ := by
  unfold lent cells
  rw [fits.cells_overwrite start run]
  rfl

theorem lent_add (value : α) :
    (ring.add value).lent = ring.lent.add value ∧ (ring.add value).memory.Fits :=
  ⟨lent_overwrite fits _ _ #[value], fits.edit fun _ => Storage.size_overwrite _ _ #[value]⟩

theorem lent_set? (index : Nat) (value : α) :
    (ring.set? index value).map lent = ring.lent.set? index value ∧
      ∀ next, ring.set? index value = some next → next.memory.Fits := by
  unfold set?
  show Option.map lent (Option.map _ (ring.window.slot? index)) =
    Option.map _ (ring.window.slot? index) ∧ _
  cases ring.window.slot? index with
  | none => exact ⟨rfl, by simp⟩
  | some slot =>
    refine ⟨congrArg some (lent_overwrite fits _ slot #[value]), ?_⟩
    rintro next ⟨rfl⟩
    exact fits.edit fun _ => Storage.size_overwrite _ slot #[value]

/-- Values stored over the elements go over the slots before the turn and then over those behind
it. -/
theorem lent_assign (run : Array α) :
    (ring.assign run).lent = ring.lent.assign run ∧ (ring.assign run).memory.Fits := by
  let window := ring.window
  let head := run.extract 0 window.headLength
  let tail := run.extract window.headLength (window.headLength + window.wrapped)
  let middle : Ring α := ⟨ring.memory.edit (Storage.overwrite · window.start head), window⟩
  have edited : ring.assign run = ⟨middle.memory.edit (Storage.overwrite · 0 tail), window⟩ := by
    unfold assign middle
    rw [Span.edit_edit]
  have inside : middle.memory.Fits := fits.edit fun _ => Storage.size_overwrite _ _ _
  rw [edited]
  refine ⟨?_, inside.edit fun _ => Storage.size_overwrite _ _ _⟩
  rw [lent_overwrite inside, lent_overwrite fits]
  rfl

theorem lent_clear [Element α] :
    ring.clear.lent = ring.lent.clear ∧ ring.clear.memory.Fits := by
  have size : ring.lent.memory.length = ring.memory.length := fits.size_cells
  refine ⟨?_, fits.edit fun _ => Storage.size_overwrite _ _ _⟩
  unfold clear Span.fill
  rw [size, lent_overwrite fits]
  rfl

theorem lent_addEach (run : Array α) :
    (ring.addEach run).lent = ring.lent.addEach run ∧ (ring.addEach run).memory.Fits := by
  unfold addEach
  rw [← Array.foldl_toList, ← Array.foldl_toList]
  generalize run.toList = values
  induction values generalizing ring with
  | nil => exact ⟨rfl, fits⟩
  | cons value rest ih =>
    obtain ⟨same, inside⟩ := lent_add fits value
    obtain ⟨last, still⟩ := ih inside
    rw [same] at last
    exact ⟨last, still⟩

/-- An operation answers the same on rented and on lent memory, and leaves the same in the slots. -/
theorem perform_lent [Element α] (action : Action α) :
    (ring.perform action).1 = (ring.lent.perform action).1 ∧
      (ring.perform action).2.lent = (ring.lent.perform action).2 ∧
      (ring.perform action).2.memory.Fits := by
  have stored (index : Nat) (value : α) := lent_set? fits index value
  cases action with
  | add value => exact ⟨rfl, lent_add fits value⟩
  | addEach run => exact ⟨rfl, lent_addEach fits run⟩
  | look index => exact ⟨rfl, rfl, fits⟩
  | get index => exact ⟨rfl, rfl, fits⟩
  | set index value =>
    obtain ⟨same, inside⟩ := stored index value
    simp only [perform, ← same]
    cases next : ring.set? index value with
    | none => exact ⟨rfl, rfl, fits⟩
    | some ring => exact ⟨rfl, rfl, inside ring next⟩
  | store index value =>
    obtain ⟨same, inside⟩ := stored index value
    simp only [perform, ← same]
    cases next : ring.set? index value with
    | none => exact ⟨rfl, rfl, fits⟩
    | some ring => exact ⟨rfl, rfl, inside ring next⟩
  | clear => exact ⟨rfl, lent_clear fits⟩
  | halves => exact ⟨rfl, rfl, fits⟩
  | lookHalves index => exact ⟨rfl, rfl, fits⟩
  | setHalves index value =>
    have same : ring.lent.openHalves = ring.openHalves := rfl
    simp only [perform, same]
    cases ring.openHalves.set? index value with
    | none => exact ⟨rfl, rfl, fits⟩
    | some halves => exact ⟨rfl, lent_assign fits halves.toArray⟩
  | assign run => exact ⟨rfl, lent_assign fits run⟩
  | reversed => exact ⟨rfl, rfl, fits⟩

theorem run_lent [Element α] (actions : List (Action α)) :
    (ring.run actions).lent = ring.lent.run actions ∧ (ring.run actions).memory.Fits := by
  unfold run
  induction actions generalizing ring with
  | nil => exact ⟨rfl, fits⟩
  | cons action rest ih =>
    obtain ⟨-, same, inside⟩ := perform_lent fits action
    obtain ⟨last, still⟩ := ih inside
    rw [same] at last
    exact ⟨last, still⟩

end Lent

/-! ## The elements of a ring -/

/-- A ring that holds these elements, the oldest first: they lie in the slots of its window. -/
structure Holds (ring : Ring α) (kept : List α) : Prop where
  sound : ring.window.Sound
  size_eq : ring.cells.size = ring.window.capacity
  kept_eq : ring.window.slots.map (ring.cells[·]?) = kept.map some

section Views

variable {ring : Ring α} {kept : List α}

theorem Holds.length_kept (holds : ring.Holds kept) : kept.length = ring.window.count := by
  have lengths := congrArg List.length holds.kept_eq
  rw [List.length_map, List.length_map, Window.length_slots] at lengths
  exact lengths.symm

/-- An element lies in its slot. -/
theorem Holds.getElem?_kept (holds : ring.Holds kept) (index : Nat) :
    kept[index]? = ring.window.slots[index]?.bind (ring.cells[·]?) := by
  have same := congrArg (·[index]?) holds.kept_eq
  simp only [List.getElem?_map] at same
  cases here : kept[index]? <;> cases place : ring.window.slots[index]? <;> simp_all

theorem Holds.get?_eq (holds : ring.Holds kept) (index : Nat) : ring.get? index = kept[index]? := by
  rw [holds.getElem?_kept, get?, Window.slot?_eq]

/-- A stretch of cells, each of them looked up. -/
theorem map_some_extract {cells : Array α} {start count : Nat}
    (inside : start + count ≤ cells.size) :
    (cells.extract start (start + count)).toList.map some =
      (List.range' start count).map (cells[·]?) := by
  apply List.ext_getElem
  · simp only [List.length_map, Array.length_toList, Array.size_extract, List.length_range']
    omega
  · intro index here there
    rw [List.length_map, List.length_range'] at there
    simp only [List.getElem_map, Array.getElem_toList, Array.getElem_extract, List.getElem_range',
      Nat.one_mul]
    rw [Array.getElem?_eq_getElem]

/-- The first half is what lies in the slots before the turn, the second what lies behind it. -/
theorem Holds.halves_eq (holds : ring.Holds kept) :
    ring.halves.first.toList.map some = ring.window.headSlots.map (ring.cells[·]?) ∧
      ring.halves.second.toList.map some = ring.window.wrappedSlots.map (ring.cells[·]?) := by
  obtain ⟨-, apart, inside, -⟩ := holds.sound.lengths
  have start_lt := holds.sound.start_lt
  have size := holds.size_eq
  constructor
  · exact map_some_extract (by omega)
  · have first := map_some_extract (by omega : 0 + ring.window.wrapped ≤ ring.cells.size)
    rw [Nat.zero_add, ← List.range_eq_range'] at first
    exact first

theorem Holds.toArray_eq (holds : ring.Holds kept) : ring.toArray.toList = kept := by
  obtain ⟨first, second⟩ := holds.halves_eq
  refine (List.map_inj_right fun _ _ => Option.some.inj).1 ?_
  rw [← holds.kept_eq, holds.sound.slots_eq, toArray, Halves.toArray, Array.toList_append,
    List.map_append, List.map_append, first, second]

/-- Cut where the oldest element lies, the slots show the same two halves. -/
theorem Holds.openHalves_eq (holds : ring.Holds kept) : ring.openHalves = ring.halves := by
  obtain ⟨-, apart, inside, -⟩ := holds.sound.lengths
  have size := holds.size_eq
  unfold openHalves halves
  simp only [Array.extract_extract, Halves.mk.injEq]
  constructor
  · congr 1
    omega
  · congr 1
    omega

theorem Holds.isSplit_iff (holds : ring.Holds kept) :
    ring.halves.isSplit = true ↔ ring.window.capacity < ring.window.start + ring.window.count := by
  obtain ⟨-, apart, -, -⟩ := holds.sound.lengths
  have start_lt := holds.sound.start_lt
  have size := holds.size_eq
  have second : ring.halves.second.size = ring.window.wrapped := by
    show (ring.cells.extract 0 ring.window.wrapped).size = _
    rw [Array.size_extract]
    omega
  rw [← Window.wrapped_pos, ← second, Halves.isSplit, Bool.not_eq_true', Array.isEmpty_eq_false_iff,
    Array.size_pos_iff]

/-- What the views of a ring show when it holds some elements. -/
structure Views (ring : Ring α) (kept : List α) : Prop where
  length_eq : ring.length = kept.length
  isFull_iff : ring.isFull = true ↔ kept.length = ring.capacity
  toArray_eq : ring.toArray.toList = kept
  get?_eq : ∀ index, ring.get? index = kept[index]?
  get_eq : ∀ index, ring.get index =
    if h : index < kept.length then .ok kept[index] else .error ⟨.ring, index, kept.length⟩
  halves_eq : ring.halves.first.toList ++ ring.halves.second.toList = kept
  openHalves_eq : ring.openHalves.first.toList ++ ring.openHalves.second.toList = kept
  halves_get?_eq : ∀ index, ring.halves.get? index = kept[index]?
  /-- The slots of the elements are those of the two halves, one after the other. -/
  slots_eq : (List.range ring.length).filterMap ring.window.slot? =
    ring.window.headSlots ++ ring.window.wrappedSlots
  first_eq : ring.halves.first.toList.map some = ring.window.headSlots.map (ring.cells[·]?)
  second_eq : ring.halves.second.toList.map some = ring.window.wrappedSlots.map (ring.cells[·]?)
  exactly_one : ∀ index slot, ring.window.slot? index = some slot →
    (slot ∈ ring.window.headSlots ↔ slot ∉ ring.window.wrappedSlots)
  isSplit_iff : ring.halves.isSplit = true ↔ ring.capacity < ring.window.start + ring.length

theorem Holds.views (holds : ring.Holds kept) : ring.Views kept where
  length_eq := holds.length_kept.symm
  isFull_iff := by
    rw [holds.length_kept]
    exact decide_eq_true_iff
  toArray_eq := holds.toArray_eq
  get?_eq := holds.get?_eq
  get_eq index := by
    have length := holds.length_kept
    unfold get
    rw [holds.get?_eq]
    by_cases inside : index < kept.length
    · rw [List.getElem?_eq_getElem inside, dif_pos inside]
    · rw [List.getElem?_eq_none (Nat.le_of_not_lt inside), dif_neg inside, length]
      rfl
  halves_eq := by
    rw [← Array.toList_append]
    exact holds.toArray_eq
  openHalves_eq := by
    rw [holds.openHalves_eq, ← Array.toList_append]
    exact holds.toArray_eq
  halves_get?_eq index := by
    rw [Halves.get?_eq, ← Array.getElem?_toList]
    exact congrArg (·[index]?) holds.toArray_eq
  slots_eq := by
    rw [← holds.sound.slots_eq]
    exact Window.filterMap_slot? ring.window
  first_eq := holds.halves_eq.1
  second_eq := holds.halves_eq.2
  exactly_one index slot used := by
    rw [Window.slot?_eq] at used
    exact holds.sound.mem_exactly_one (List.mem_of_getElem? used)
  isSplit_iff := holds.isSplit_iff

end Views

/-! ## Operations -/

section Operations

variable {ring : Ring α} {kept : List α}

/-- Elements exchanged in their slots. -/
theorem Holds.rewrite (holds : ring.Holds kept) {memory : Span α} {changed : List α}
    (size : memory.cells.size = ring.cells.size) (length : changed.length = kept.length)
    (places : ∀ index slot : Nat, ring.window.slots[index]? = some slot →
      memory.cells[slot]? = changed[index]?) :
    Holds { ring with memory := memory } changed where
  sound := holds.sound
  size_eq := size.trans holds.size_eq
  kept_eq := by
    apply List.ext_getElem?
    intro index
    show (ring.window.slots.map (memory.cells[·]?))[index]? = _
    rw [List.getElem?_map, List.getElem?_map]
    have count : changed.length = ring.window.slots.length := by
      rw [length, holds.length_kept, Window.length_slots]
    cases place : ring.window.slots[index]? with
    | none =>
      have outside := List.getElem?_eq_none_iff.1 place
      rw [List.getElem?_eq_none (count ▸ outside)]
      rfl
    | some slot =>
      have inside := (List.getElem?_eq_some_iff.1 place).1
      rw [Option.map_some, places index slot place, List.getElem?_eq_getElem (count ▸ inside)]
      rfl

/-- The slots of two elements differ. -/
theorem Holds.slot_inj (holds : ring.Holds kept) {first second slot : Nat}
    (one : ring.window.slots[first]? = some slot) (other : ring.window.slots[second]? = some slot) :
    first = second := by
  obtain ⟨inside, here⟩ := List.getElem?_eq_some_iff.1 one
  obtain ⟨within, there⟩ := List.getElem?_eq_some_iff.1 other
  exact (holds.sound.nodup_slots.getElem_inj_iff).1 (here.trans there.symm)

theorem Holds.slot_lt (holds : ring.Holds kept) {index slot : Nat}
    (place : ring.window.slots[index]? = some slot) : slot < ring.cells.size := by
  obtain ⟨step, -, rfl⟩ := List.mem_map.1 (List.mem_of_getElem? place)
  rw [holds.size_eq]
  exact holds.sound.slotAt_lt step

/-- It does not matter where the memory of a ring is from. -/
theorem Holds.lent (holds : ring.Holds kept) : ring.lent.Holds kept := { holds with }

theorem Holds.ofLent (holds : ring.lent.Holds kept) : ring.Holds kept := { holds with }

/-- A new element goes behind the others, of which the oldest one is forgotten in a full ring. -/
theorem Holds.add (holds : ring.Holds kept) (value : α) :
    (ring.lent.add value).Holds (newest ring.capacity (kept ++ [value])) where
  sound := holds.sound.push
  size_eq := by
    show (ring.cells.setIfInBounds _ value).size = ring.window.push.2.capacity
    rw [Window.capacity_push, ← holds.size_eq]
    exact Array.size_setIfInBounds
  kept_eq := by
    let slot := ring.window.slotAt ring.window.count
    let gone := if ring.window.isFull then 1 else 0
    have count_le := holds.sound.count_le
    have short : gone ≤ ring.window.slots.length := holds.sound.forgotten_le
    have inside : slot < ring.cells.size := by
      rw [holds.size_eq]
      exact holds.sound.slotAt_lt _
    have dropped : newest ring.capacity (kept ++ [value]) = kept.drop gone ++ [value] := by
      have excess : (kept ++ [value]).length - ring.capacity = gone := by
        rw [List.length_append, holds.length_kept, List.length_singleton]
        show ring.window.count + 1 - ring.window.capacity = if ring.window.isFull then 1 else 0
        unfold Window.isFull
        simp only [decide_eq_true_eq]
        split <;> omega
      rw [newest, excess, List.drop_append_of_le_length]
      rw [holds.length_kept, ← Window.length_slots]
      exact short
    have stayed : (ring.window.slots.drop gone).map (ring.cells[·]?) =
        (kept.drop gone).map some := by
      rw [List.map_drop, holds.kept_eq, ← List.map_drop]
    -- The slot of the new element is not that of any element that stays.
    have others : (ring.window.slots.drop gone).map ((ring.cells.setIfInBounds slot value)[·]?) =
        (ring.window.slots.drop gone).map (ring.cells[·]?) := by
      refine List.map_congr_left fun other member => ?_
      refine Array.getElem?_setIfInBounds_ne fun same => ?_
      subst same
      exact holds.sound.slotAt_count_notMem member
    show (ring.window.push.2.slots.map ((ring.cells.setIfInBounds slot value)[·]?)) = _
    rw [dropped, Window.slots_push, List.drop_append_of_le_length short, List.map_append,
      List.map_append, others, stayed, List.map_singleton,
      Array.getElem?_setIfInBounds_self_of_lt inside]
    rfl

/-- Elements that come one after the other. -/
theorem Holds.addEach (holds : ring.Holds kept) (run : Array α) :
    (ring.lent.addEach run).Holds (newest ring.capacity (kept ++ run.toList)) := by
  unfold Ring.addEach
  rw [← Array.foldl_toList]
  generalize run.toList = values
  induction values generalizing ring kept with
  | nil =>
    rw [List.append_nil, newest_of_le]
    · exact holds.lent
    · rw [holds.length_kept]
      exact holds.sound.count_le
  | cons value rest ih =>
    have capacity : (ring.lent.add value).capacity = ring.capacity := Window.capacity_push _
    have all := ih (holds.add value)
    rw [capacity, newest_newest_append, List.append_assoc, List.singleton_append] at all
    exact all

/-- An element is exchanged where there is one at the index. -/
theorem Holds.set? (holds : ring.Holds kept) (index : Nat) (value : α) :
    match ring.lent.set? index value with
    | some next => next.Holds (kept.set index value)
    | none => kept.length ≤ index := by
  unfold Ring.set?
  show match Option.map _ (ring.window.slot? index) with
    | some next => Ring.Holds next (kept.set index value)
    | none => kept.length ≤ index
  rw [Window.slot?_eq]
  cases place : ring.window.slots[index]? with
  | none =>
    have outside := List.getElem?_eq_none_iff.1 place
    rw [Window.length_slots, ← holds.length_kept] at outside
    exact outside
  | some slot =>
    refine holds.lent.rewrite Array.size_setIfInBounds List.length_set ?_
    intro other there taken
    have used : ring.window.slots[other]? = some there := taken
    show (ring.cells.setIfInBounds slot value)[there]? = _
    have inside : index < kept.length := by
      rw [holds.length_kept, ← Window.length_slots]
      exact (List.getElem?_eq_some_iff.1 place).1
    by_cases same : index = other
    · subst same
      obtain rfl := Option.some.inj (place.symm.trans used)
      rw [Array.getElem?_setIfInBounds_self_of_lt (holds.slot_lt place),
        List.getElem?_set_self inside]
    · have apart : slot ≠ there := fun equal => same (holds.slot_inj (equal ▸ place) used)
      rw [Array.getElem?_setIfInBounds_ne apart, List.getElem?_set_ne same, holds.getElem?_kept,
        used]
      rfl

/-- A cell of an array that a stretch of a run is written over. -/
theorem getElem?_overwrite_extract (run : Array α) {cells : Array α} (start first last : Nat)
    {slot : Nat} (inside : slot < cells.size) :
    (Storage.overwrite cells start (run.extract first last))[slot]? =
      if start ≤ slot ∧ first + (slot - start) < min last run.size
      then run[first + (slot - start)]? else cells[slot]? := by
  rw [Storage.getElem?_overwrite, Array.size_extract, Array.getElem?_extract]
  by_cases written : start ≤ slot ∧ first + (slot - start) < min last run.size
  · rw [if_pos (by omega), if_pos (by omega), if_pos written]
  · rw [if_neg (by omega), if_neg written]

/-- Values stored over the elements in their order. -/
theorem Holds.assign (holds : ring.Holds kept) (run : Array α) :
    (ring.lent.assign run).Holds (overlay kept run.toList) := by
  let window := ring.window
  let written := Storage.overwrite ring.cells window.start (run.extract 0 window.headLength)
  have size : written.size = ring.cells.size := Storage.size_overwrite _ _ _
  refine holds.lent.rewrite ?_ (length_overlay _ _) ?_
  · exact (Storage.size_overwrite _ _ _).trans size
  intro index slot taken
  have used : window.slots[index]? = some slot := taken
  have here : kept[index]? = ring.cells[slot]? := by
    rw [holds.getElem?_kept, used]
    rfl
  have below : slot < ring.cells.size := holds.slot_lt used
  have sound : window.Sound := holds.sound
  obtain ⟨within, place⟩ := sound.slot_eq used
  obtain ⟨total, apart, -, -⟩ := sound.lengths
  rw [getElem?_overlay _ (holds.length_kept.symm ▸ within), here, Array.length_toList,
    Array.getElem?_toList]
  show (Storage.overwrite written 0
    (run.extract window.headLength (window.headLength + window.wrapped)))[slot]? = _
  rw [getElem?_overwrite_extract _ _ _ _ (size.symm ▸ below),
    getElem?_overwrite_extract _ _ _ _ below]
  by_cases before : index < window.headLength
  · -- The stretch behind the turn ends in front of the oldest element.
    rw [if_pos before] at place
    have step : 0 + (slot - window.start) = index := by omega
    rw [if_neg (by omega), step]
    by_cases covered : index < run.size
    · rw [if_pos (by omega), if_pos covered]
    · rw [if_neg (by omega), if_neg covered]
  · rw [if_neg before] at place
    have step : window.headLength + (slot - 0) = index := by omega
    rw [step]
    by_cases covered : index < run.size
    · rw [if_pos (by omega), if_pos covered]
    · rw [if_neg (by omega), if_neg (by omega), if_neg covered]

theorem Holds.setHalves (holds : ring.Holds kept) (index : Nat) (value : α) :
    match ring.openHalves.set? index value with
    | some halves => (ring.lent.assign halves.toArray).Holds (kept.set index value)
    | none => kept.length ≤ index := by
  have open_eq : ring.openHalves.toArray.toList = kept := by
    rw [holds.openHalves_eq]
    exact holds.toArray_eq
  have stored := ring.openHalves.set?_spec index value
  cases next : ring.openHalves.set? index value with
  | none =>
    rw [next] at stored
    rw [← open_eq, Array.length_toList]
    exact stored
  | some halves =>
    rw [next] at stored
    have written : halves.toArray.toList = kept.set index value := by
      rw [show halves.toArray = _ from stored, Array.toList_setIfInBounds, open_eq]
    have all := holds.assign halves.toArray
    rw [written, overlay_of_length_eq List.length_set] at all
    exact all

/-- A cleared ring holds nothing. -/
theorem Holds.clear [Element α] (holds : ring.Holds kept) : ring.lent.clear.Holds [] where
  sound := holds.sound.reset
  size_eq := by
    refine Eq.trans ?_ holds.size_eq
    exact Storage.size_overwrite _ _ _
  kept_eq := rfl

end Operations

/-! ## Histories -/

/-- What has been added since the last clearing, oldest first and with the changes made to it: what
it is after an operation on a ring with so many slots. A change addresses one of the newest
elements, counted from the oldest of them. -/
def Action.record (capacity : Nat) (all : List α) : Action α → List α
  | .add value => all ++ [value]
  | .addEach run => all ++ run.toList
  | .set index value | .store index value | .setHalves index value =>
    exchange capacity all ((newest capacity all).set index value)
  | .assign run => exchange capacity all (overlay (newest capacity all) run.toList)
  | .clear => []
  | .look _ | .get _ | .halves | .lookHalves _ | .reversed => all

/-- What has been added since the last clearing when so many slots were there for it. -/
def recorded (capacity : Nat) (actions : List (Action α)) : List α :=
  actions.foldl (Action.record capacity) []

/-- A ring with so many slots that holds the newest of some elements. -/
structure Keeps (ring : Ring α) (capacity : Nat) (all : List α) : Prop where
  capacity_eq : ring.capacity = capacity
  holds : ring.Holds (newest capacity all)

section Histories

variable {ring : Ring α} {capacity : Nat} {all : List α}

theorem Keeps.lent (keeps : ring.Keeps capacity all) : ring.lent.Keeps capacity all :=
  ⟨keeps.capacity_eq, keeps.holds.lent⟩

theorem Keeps.ofLent (keeps : ring.lent.Keeps capacity all) : ring.Keeps capacity all :=
  ⟨keeps.capacity_eq, keeps.holds.ofLent⟩

/-- A change to the elements that a ring holds is one to the newest elements of all. -/
theorem Keeps.exchange (keeps : ring.Keeps capacity all) {next : Ring α} {changed : List α}
    (slots : next.capacity = ring.capacity) (holds : next.Holds changed)
    (length : changed.length = (newest capacity all).length) :
    next.Keeps capacity (PooledBuffers.exchange capacity all changed) where
  capacity_eq := slots.trans keeps.capacity_eq
  holds := by
    rw [newest_exchange length]
    exact holds

theorem capacity_set? {index : Nat} {value : α} {next : Ring α}
    (stored : ring.set? index value = some next) : next.capacity = ring.capacity := by
  obtain ⟨slot, -, rfl⟩ := Option.map_eq_some_iff.1 stored
  rfl

/-- A value stored at an index goes over one of the newest elements, or nowhere. -/
theorem Keeps.set? (keeps : ring.Keeps capacity all) (index : Nat) (value : α) :
    (((ring.lent.set? index value).getD ring.lent).Keeps capacity
      (PooledBuffers.exchange capacity all ((newest capacity all).set index value))) := by
  have stored := keeps.holds.set? index value
  cases next : ring.lent.set? index value with
  | none =>
    rw [next] at stored
    rw [exchange_set_of_le stored]
    exact keeps.lent
  | some changed =>
    rw [next] at stored
    have slots : changed.capacity = ring.lent.capacity := capacity_set? next
    exact keeps.exchange slots stored List.length_set

theorem capacity_addEach (ring : Ring α) (run : Array α) :
    (ring.addEach run).capacity = ring.capacity := by
  unfold Ring.addEach
  rw [← Array.foldl_toList]
  induction run.toList generalizing ring with
  | nil => rfl
  | cons value rest ih => exact (ih (ring.add value)).trans (Window.capacity_push _)

variable [Element α]

/-- After one more operation a ring holds the newest elements of what is recorded then. -/
theorem Keeps.perform (keeps : ring.Keeps capacity all) (action : Action α) :
    (ring.lent.perform action).2.Keeps capacity (action.record capacity all) := by
  have slots := keeps.capacity_eq
  have holds := keeps.holds
  cases action with
  | add value =>
    refine ⟨(Window.capacity_push _).trans slots, ?_⟩
    have added := holds.add value
    rw [slots, newest_newest_append] at added
    exact added
  | addEach run =>
    refine ⟨(capacity_addEach _ run).trans slots, ?_⟩
    have added := holds.addEach run
    rw [slots, newest_newest_append] at added
    exact added
  | set index value | store index value =>
    have stored := keeps.set? index value
    simp only [Ring.perform, Action.record]
    cases next : ring.lent.set? index value with
    | none =>
      rw [next] at stored
      exact stored
    | some changed =>
      rw [next] at stored
      exact stored
  | clear => exact ⟨slots, by rw [newest_of_le (Nat.zero_le _)]; exact holds.clear⟩
  | setHalves index value =>
    have stored := holds.setHalves index value
    have same : ring.lent.openHalves = ring.openHalves := rfl
    simp only [Ring.perform, Action.record, same]
    cases next : ring.openHalves.set? index value with
    | none =>
      rw [next] at stored
      rw [exchange_set_of_le stored]
      exact keeps.lent
    | some halves =>
      rw [next] at stored
      exact keeps.exchange rfl stored List.length_set
  | assign run => exact keeps.exchange rfl (holds.assign run) (length_overlay _ _)
  | look _ | get _ | halves | lookHalves _ | reversed => exact keeps.lent

theorem Keeps.run (keeps : ring.Keeps capacity all) (actions : List (Action α)) :
    (ring.lent.run actions).Keeps capacity (actions.foldl (Action.record capacity) all) := by
  unfold Ring.run
  induction actions generalizing ring all with
  | nil => exact keeps.lent
  | cons action rest ih =>
    have first := keeps.perform action
    -- On lent memory an operation leaves lent memory.
    have fits : ring.lent.memory.Fits := trivial
    have still : (ring.lent.perform action).2.lent = (ring.lent.perform action).2 :=
      (perform_lent fits action).2.1
    have last := ih first
    rw [still] at last
    exact last

end Histories

/-! ## Both kinds of ring -/

section Starts

variable {capacity : Nat}

/-- A ring without elements. -/
theorem keeps_fresh {memory : Span α} (positive : 1 ≤ capacity)
    (size : memory.cells.size = capacity) :
    Keeps { memory := memory, window := { capacity := capacity } } capacity [] where
  capacity_eq := rfl
  holds := by
    rw [newest_of_le (Nat.zero_le _)]
    exact ⟨Window.sound_fresh positive, size, rfl⟩

theorem lend_eq {cells : Array α} (positive : 1 ≤ cells.size) :
    lend cells = .ok { memory := .borrowed cells, window := { capacity := cells.size } } := by
  unfold lend
  rw [if_neg]
  rw [Array.isEmpty_iff_size_eq_zero]
  omega

variable [Element α]

theorem rent_eq (pool : Pool α) (positive : 1 ≤ capacity) :
    rent pool capacity =
      .ok ({ memory := (Span.rent pool capacity).1, window := { capacity := capacity } },
        (Span.rent pool capacity).2) := by
  unfold rent
  rw [if_neg (by omega)]

/-- What a ring keeps is what its views show, from wherever its memory is. -/
theorem Keeps.views_run {ring : Ring α} (keeps : ring.Keeps capacity []) (fits : ring.memory.Fits)
    (actions : List (Action α)) :
    (ring.run actions).capacity = capacity ∧
      (ring.run actions).Views (newest capacity (recorded capacity actions)) := by
  have last := keeps.run actions
  rw [← (run_lent fits actions).1] at last
  exact ⟨last.ofLent.capacity_eq, last.ofLent.holds.views⟩

/-- Both kinds of ring keep the newest elements: with any number of slots, in whatever state the
pool is and whatever the caller's memory held, every run of operations leaves a ring that holds the
newest elements added since it was made or last cleared, as many as it has slots and with the
changes made to them, and all its views show these. From blank slots on, the two kinds have the
same elements in the same slots after every run, and answer every operation the same. -/
theorem keeps_newest (pool : Pool α) (reachable : pool.Reachable) (cells : Array α)
    (positive : 1 ≤ capacity) (size : cells.size = capacity) :
    ∃ (rented lentOut blank : Ring α) (rest : Pool α),
      rent pool capacity = .ok (rented, rest) ∧ lend cells = .ok lentOut ∧
      lend (Storage.blank capacity) = .ok blank ∧
      ∀ actions : List (Action α),
        let kept := newest capacity (recorded capacity actions)
        let ends := rented.run actions
        let other := blank.run actions
        (ends.capacity = capacity ∧ ends.Views kept) ∧
        ((lentOut.run actions).capacity = capacity ∧ (lentOut.run actions).Views kept) ∧
        ends.cells = other.cells ∧ ends.window = other.window ∧ ends.halves = other.halves ∧
        ∀ action, (ends.perform action).1 = (other.perform action).1 := by
  subst size
  have blanks : (Span.rent pool cells.size).1.cells = Storage.blank cells.size :=
    Block.cells_rent reachable.sound _
  have slots : (Storage.blank cells.size : Array α).size = cells.size := Storage.size_blank _
  have some_slot : 1 ≤ (Storage.blank cells.size : Array α).size := slots.symm ▸ positive
  refine ⟨_, _, _, _, rent_eq pool positive, lend_eq positive,
    lend_eq some_slot, ?_⟩
  intro actions kept ends other
  let rented : Ring α := ⟨(Span.rent pool cells.size).1, { capacity := cells.size }⟩
  have fits : rented.memory.Fits := Block.fits_rent reachable.sound _ true
  have keeps : rented.Keeps cells.size [] := keeps_fresh positive (blanks ▸ slots)
  have lends : Keeps (⟨.borrowed cells, { capacity := cells.size }⟩ : Ring α) cells.size [] :=
    keeps_fresh positive rfl
  -- On lent memory with the same blank slots the rented ring is the other one.
  have begins : rented.lent =
      { memory := .borrowed (Storage.blank cells.size)
        window := { capacity := (Storage.blank cells.size : Array α).size } } := by
    rw [slots]
    exact congrArg (fun cells' => Ring.mk (.borrowed cells') rented.window) blanks
  obtain ⟨same, inside⟩ := run_lent fits actions
  rw [begins] at same
  have equal : ends.lent = other := same
  refine ⟨keeps.views_run fits actions, lends.views_run trivial actions, ?_⟩
  rw [← equal]
  exact ⟨rfl, rfl, rfl, fun action => (perform_lent inside action).1⟩

/-- Three slots, for five elements that come after a clearing and two changes among them. -/
theorem keeps_newest_wrapped :
    let actions : List (Action UInt32) :=
      [.add 9, .clear, .addEach #[1, 2, 3, 4], .setHalves 2 8, .add 5, .set 0 7, .set 3 6]
    (Pool.standard : Pool UInt32).Reachable ∧ newest 3 (recorded 3 actions) = [7, 8, 5] ∧
      ∃ (rented : Ring UInt32) (rest : Pool UInt32),
        rent Pool.standard 3 = .ok (rented, rest) ∧
        (rented.run actions).toArray.toList = [7, 8, 5] := by
  intro actions
  have recorded_eq : newest 3 (recorded 3 actions) = [7, 8, 5] := by decide
  obtain ⟨rented, lentOut, blank, rest, made, -, -, runs⟩ :=
    keeps_newest (Pool.standard : Pool UInt32) Pool.reachable_standard #[4, 4, 4]
      (by decide : 1 ≤ 3) rfl
  have shown := (runs actions).1.2.toArray_eq
  rw [recorded_eq] at shown
  exact ⟨Pool.reachable_standard, recorded_eq, rented, rest, made, shown⟩

end Starts

end Ring

end PooledBuffers
