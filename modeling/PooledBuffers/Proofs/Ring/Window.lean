import Mathlib.Data.List.Nodup
import PooledBuffers.Ring.Window

/-!
# The slots of a window

A window onto a ring has its slots in the order of the elements. They are a stretch up to the last
slot and, where the elements go on behind the turn, a stretch from the first slot on; no slot is in
use twice.

* `Window.slots` — the slots in use, in the order of the elements;
* `Window.Sound.slots_eq` — they are the slots before and behind the turn;
* `Window.slots_push` — a new element takes the slot behind them, and a full window gives up the
  first one.
-/

namespace PooledBuffers.Window

/-- The slot that is `index` steps behind the first one in use. -/
def slotAt (window : Window) (index : Nat) : Nat := (window.start + index) % window.capacity

/-- The slots in use, that of the oldest element first. -/
def slots (window : Window) : List Nat := (List.range window.count).map window.slotAt

/-- The slots in use up to the last slot. -/
def headSlots (window : Window) : List Nat := List.range' window.start window.headLength

/-- The slots in use behind the turn. -/
def wrappedSlots (window : Window) : List Nat := List.range window.wrapped

/-- A window that starts at a slot and is no longer than the ring. -/
structure Sound (window : Window) : Prop where
  start_lt : window.start < window.capacity
  count_le : window.count ≤ window.capacity

variable {window : Window}

@[simp] theorem length_slots (window : Window) : window.slots.length = window.count := by
  simp [slots]

/-- Looking up a slot is looking into the list of slots. -/
theorem slot?_eq (window : Window) (index : Nat) : window.slot? index = window.slots[index]? := by
  unfold slot? slots slotAt
  by_cases inside : index < window.count
  · simp [inside]
  · simp [inside]

/-- The slots of all elements, looked up one by one. -/
theorem filterMap_slot? (window : Window) :
    (List.range window.count).filterMap window.slot? = window.slots := by
  rw [slots, ← List.filterMap_eq_map]
  refine List.filterMap_congr fun index member => ?_
  exact if_pos (List.mem_range.1 member)

theorem sound_fresh {capacity : Nat} (positive : 0 < capacity) :
    ({ capacity := capacity } : Window).Sound :=
  ⟨positive, Nat.zero_le _⟩

theorem Sound.reset (sound : window.Sound) : window.reset.Sound :=
  ⟨Nat.zero_lt_of_lt sound.start_lt, Nat.zero_le _⟩

/-! ## The turn -/

/-- The elements before and behind the turn are all elements, and those behind it end in front of
the oldest one. -/
theorem Sound.lengths (sound : window.Sound) :
    window.headLength + window.wrapped = window.count ∧ window.wrapped ≤ window.start ∧
      window.start + window.headLength ≤ window.capacity ∧
      (0 < window.wrapped → window.start + window.headLength = window.capacity) := by
  obtain ⟨start_lt, count_le⟩ := sound
  unfold headLength wrapped
  omega

/-- There is something behind the turn exactly if the elements reach past the last slot. -/
theorem wrapped_pos (window : Window) :
    0 < window.wrapped ↔ window.capacity < window.start + window.count := by
  unfold wrapped
  omega

theorem Sound.slotAt_eq (sound : window.Sound) {index : Nat} (inside : index ≤ window.capacity) :
    window.slotAt index =
      if window.start + index < window.capacity then window.start + index
      else window.start + index - window.capacity := by
  have start_lt := sound.start_lt
  unfold slotAt
  split
  · rename_i before
    exact Nat.mod_eq_of_lt before
  · rename_i behind
    rw [Nat.mod_eq_sub_mod (Nat.le_of_not_lt behind), Nat.mod_eq_of_lt (by omega)]

theorem Sound.slotAt_lt (sound : window.Sound) (index : Nat) :
    window.slotAt index < window.capacity :=
  Nat.mod_lt _ (Nat.zero_lt_of_lt sound.start_lt)

/-- The slots in the order of the elements are those before the turn and then those behind it. -/
theorem Sound.slots_eq (sound : window.Sound) :
    window.slots = window.headSlots ++ window.wrappedSlots := by
  obtain ⟨total, -, inside, full⟩ := sound.lengths
  have count_le := sound.count_le
  apply List.ext_getElem
  · simp [headSlots, wrappedSlots, total]
  · intro index here _
    rw [length_slots] at here
    have place := sound.slotAt_eq (by omega : index ≤ window.capacity)
    rw [List.getElem_append]
    simp only [slots, headSlots, wrappedSlots, List.getElem_map, List.getElem_range,
      List.length_range', List.getElem_range', Nat.one_mul, place]
    split <;> split <;> omega

/-- Where the slot of an element lies: that many steps behind the start while the turn is not
reached, and from the first slot on afterwards. -/
theorem Sound.slot_eq (sound : window.Sound) {index slot : Nat}
    (used : window.slots[index]? = some slot) :
    index < window.count ∧
      slot = if index < window.headLength then window.start + index
        else index - window.headLength := by
  obtain ⟨within, place⟩ := List.getElem?_eq_some_iff.1 used
  rw [length_slots] at within
  refine ⟨within, ?_⟩
  have total := sound.lengths.1
  have listed : (window.headSlots ++ window.wrappedSlots)[index]? = some slot :=
    sound.slots_eq ▸ used
  rw [List.getElem?_append, headSlots, wrappedSlots, List.length_range'] at listed
  split at listed
  · rename_i before
    rw [if_pos before]
    rw [List.getElem?_range' before, Nat.one_mul] at listed
    exact (Option.some.inj listed).symm
  · rename_i behind
    rw [if_neg behind]
    rw [List.getElem?_range (by omega)] at listed
    exact (Option.some.inj listed).symm

/-- No slot is in use twice. -/
theorem Sound.nodup_slots (sound : window.Sound) : window.slots.Nodup := by
  have apart := sound.lengths.2.1
  rw [sound.slots_eq]
  refine List.nodup_append.2 ⟨List.nodup_range', List.nodup_range, ?_⟩
  intro slot before other behind same
  have first := (List.mem_range'_1.1 before).1
  have second := List.mem_range.1 behind
  omega

/-- A slot of a live element lies in exactly one of the two stretches. -/
theorem Sound.mem_exactly_one (sound : window.Sound) {slot : Nat} (used : slot ∈ window.slots) :
    slot ∈ window.headSlots ↔ slot ∉ window.wrappedSlots := by
  have apart := sound.lengths.2.1
  rw [sound.slots_eq, List.mem_append] at used
  simp only [headSlots, wrappedSlots, List.mem_range'_1, List.mem_range] at used ⊢
  omega

/-! ## New elements -/

@[simp] theorem capacity_push (window : Window) : window.push.2.capacity = window.capacity := by
  unfold push
  split <;> rfl

theorem Sound.push (sound : window.Sound) : window.push.2.Sound := by
  obtain ⟨start_lt, count_le⟩ := sound
  unfold Window.push isFull
  split
  · exact ⟨Nat.mod_lt _ (Nat.zero_lt_of_lt start_lt), count_le⟩
  · rename_i room
    simp only [decide_eq_true_eq] at room
    exact ⟨start_lt, by show window.count + 1 ≤ window.capacity; omega⟩

/-- A new element takes the slot behind the others; a full window gives up its first slot. -/
theorem slots_push (window : Window) :
    window.push.2.slots =
      (window.slots ++ [window.slotAt window.count]).drop
        (if window.isFull then 1 else 0) := by
  have longer : window.slots ++ [window.slotAt window.count] =
      (List.range (window.count + 1)).map window.slotAt := by
    rw [List.range_succ, List.map_append]
    rfl
  rw [longer]
  by_cases full : window.isFull = true
  · -- All elements come one step closer to the start, which moves on by one.
    have next (index : Nat) :
        ((window.start + 1) % window.capacity + index) % window.capacity =
          window.slotAt (index + 1) := by
      rw [Nat.mod_add_mod, Nat.add_assoc, Nat.add_comm 1 index]
      rfl
    have rest : ((List.range (window.count + 1)).map window.slotAt).drop 1 =
        (List.range window.count).map fun index => window.slotAt (index + 1) := by
      rw [List.range_succ_eq_map, List.map_cons, List.drop_one, List.tail_cons, List.map_map]
      rfl
    rw [if_pos full, rest]
    unfold Window.push
    rw [if_pos full]
    exact List.map_congr_left fun index _ => next index
  · rw [if_neg full, List.drop_zero]
    unfold Window.push
    rw [if_neg full]
    rfl

/-- A full window has an element to give up. -/
theorem Sound.forgotten_le (sound : window.Sound) :
    (if window.isFull then 1 else 0) ≤ window.slots.length := by
  have start_lt := sound.start_lt
  rw [length_slots]
  unfold isFull
  split
  · rename_i full
    simp only [decide_eq_true_eq] at full
    omega
  · exact Nat.zero_le _

/-- The slot that a new element takes is none of those that stay in use. -/
theorem Sound.slotAt_count_notMem (sound : window.Sound) :
    window.slotAt window.count ∉ window.slots.drop (if window.isFull then 1 else 0) := by
  have distinct := sound.push.nodup_slots
  rw [slots_push, List.drop_append_of_le_length sound.forgotten_le] at distinct
  intro used
  exact (List.nodup_append.1 distinct).2.2 _ used _ (List.mem_singleton_self _) rfl

end PooledBuffers.Window
