import PooledBuffers.Regions.Store

/-!
# Slots of a data area

A region with a header has a slot: a range of the data area, which holds the region's bytes. The
slots are listed in the order of their headers; their ranges may lie in another order, and empty
ranges may share an offset with their neighbours.

* `Packed` — no two slots overlap, and together they fill the data area;
* `Packed.push`, `Packed.grow`, `Packed.remove` — a slot added at the end, bytes added to a slot
  while the slots behind it move up, and a slot taken out while those behind it move down.
-/

namespace PooledBuffers.Regions

open RegionStore (maxWord)

/-- A region with a header, and where its bytes are in the data area. -/
structure Slot where
  id : Nat
  offset : Nat
  content : Array UInt8
  items : Nat

namespace Slot

/-- The offset behind the last byte. -/
def stop (slot : Slot) : Nat := slot.offset + slot.content.size

def header (slot : Slot) : Header :=
  ⟨.ofNat slot.offset, .ofNat slot.content.size, .ofNat slot.items⟩

/-- One slot ends before the other starts. An empty slot does not lie inside another. -/
def Apart (first second : Slot) : Prop :=
  first.stop ≤ second.offset ∨ second.stop ≤ first.offset

def raise (slot : Slot) (stop added : Nat) : Slot :=
  if stop ≤ slot.offset then { slot with offset := slot.offset + added } else slot

def lower (slot : Slot) (stop removed : Nat) : Slot :=
  if stop ≤ slot.offset then { slot with offset := slot.offset - removed } else slot

/-- What becomes of a slot when a run is put at the end of `target`. -/
def grow (slot target : Slot) (run : Array UInt8) (items : Nat) : Slot :=
  if slot.id = target.id then
    { slot with content := slot.content ++ run, items := min (slot.items + items) maxWord }
  else slot.raise target.stop run.size

/-- What becomes of a slot when a byte is stored into region `id`. -/
def store (slot : Slot) (id index : Nat) (value : UInt8) : Slot :=
  if slot.id = id then { slot with content := slot.content.setIfInBounds index value } else slot

variable (slot target : Slot) (stop count : Nat)

@[simp] theorem id_raise : (slot.raise stop count).id = slot.id := by
  unfold raise
  split <;> rfl

@[simp] theorem content_raise : (slot.raise stop count).content = slot.content := by
  unfold raise
  split <;> rfl

@[simp] theorem items_raise : (slot.raise stop count).items = slot.items := by
  unfold raise
  split <;> rfl

@[simp] theorem id_lower : (slot.lower stop count).id = slot.id := by
  unfold lower
  split <;> rfl

@[simp] theorem content_lower : (slot.lower stop count).content = slot.content := by
  unfold lower
  split <;> rfl

@[simp] theorem items_lower : (slot.lower stop count).items = slot.items := by
  unfold lower
  split <;> rfl

section Store

variable (id index : Nat) (value : UInt8)

@[simp] theorem id_store : (slot.store id index value).id = slot.id := by
  unfold store
  split <;> rfl

@[simp] theorem offset_store : (slot.store id index value).offset = slot.offset := by
  unfold store
  split <;> rfl

@[simp] theorem items_store : (slot.store id index value).items = slot.items := by
  unfold store
  split <;> rfl

@[simp] theorem stop_store : (slot.store id index value).stop = slot.stop := by
  unfold store
  split <;> simp only [stop, Array.size_setIfInBounds]

@[simp] theorem header_store : (slot.store id index value).header = slot.header := by
  unfold store
  split <;> simp only [header, Array.size_setIfInBounds]

end Store

theorem grow_self (run : Array UInt8) (items : Nat) :
    slot.grow slot run items =
      { slot with content := slot.content ++ run, items := min (slot.items + items) maxWord } :=
  if_pos rfl

variable {slot target}

theorem grow_other (other : slot.id ≠ target.id) (run : Array UInt8) (items : Nat) :
    slot.grow target run items = slot.raise target.stop run.size :=
  if_neg other

@[simp] theorem id_grow (run : Array UInt8) (items : Nat) :
    (slot.grow target run items).id = slot.id := by
  unfold grow
  split
  · rfl
  · exact id_raise _ _ _

theorem offset_le_stop (slot : Slot) : slot.offset ≤ slot.stop :=
  Nat.le_add_right _ _

end Slot

/-- What is found in a list with one slot more. -/
theorem found_concat {slots : List Slot} {new slot : Slot} {k : Nat}
    (found : (slots ++ [new])[k]? = some slot) :
    slots[k]? = some slot ∨ (k = slots.length ∧ slot = new) := by
  rw [List.getElem?_append] at found
  split at found
  · exact .inl found
  · rw [List.getElem?_singleton, Option.ite_none_right_eq_some, Option.some.injEq] at found
    exact .inr ⟨by omega, found.2.symm⟩

/-- Slots of regions below `regionCount` that fill a data area of `total` bytes and do not
overlap. -/
structure Packed (slots : List Slot) (regionCount total : Nat) : Prop where
  nodup : (slots.map Slot.id).Nodup
  id_lt : ∀ slot ∈ slots, slot.id < regionCount
  items_le : ∀ slot ∈ slots, slot.items ≤ maxWord
  stop_le : ∀ slot ∈ slots, slot.stop ≤ total
  apart : ∀ first ∈ slots, ∀ second ∈ slots, first.id ≠ second.id → first.Apart second
  covered : ∀ place < total, ∃ slot ∈ slots, slot.offset ≤ place ∧ place < slot.stop

namespace Packed

variable {slots : List Slot} {regionCount total : Nat}

theorem nil (regionCount : Nat) : Packed [] regionCount 0 where
  nodup := List.nodup_nil
  id_lt := by simp
  items_le := by simp
  stop_le := by simp
  apart := by simp
  covered := by omega

theorem unique (packed : Packed slots regionCount total) {i j : Nat} {first second : Slot}
    (here : slots[i]? = some first) (there : slots[j]? = some second)
    (same : first.id = second.id) : i = j := by
  have inside : i < (slots.map Slot.id).length := by
    simpa using (List.getElem?_eq_some_iff.1 here).1
  refine (List.getElem?_inj inside packed.nodup).1 ?_
  rw [List.getElem?_map, List.getElem?_map, here, there, Option.map_some, Option.map_some, same]

theorem id_ne (packed : Packed slots regionCount total) {i j : Nat} {first second : Slot}
    (here : slots[i]? = some first) (there : slots[j]? = some second) (different : i ≠ j) :
    first.id ≠ second.id := fun same => different (packed.unique here there same)

theorem eq_of_id (packed : Packed slots regionCount total) {first second : Slot}
    (left : first ∈ slots) (right : second ∈ slots) (same : first.id = second.id) :
    first = second := by
  obtain ⟨i, here⟩ := List.mem_iff_getElem?.1 left
  obtain ⟨j, there⟩ := List.mem_iff_getElem?.1 right
  have places : i = j := packed.unique here there same
  subst places
  exact Option.some.inj (here.symm.trans there)

theorem add_region (packed : Packed slots regionCount total) :
    Packed slots (regionCount + 1) total :=
  { packed with id_lt := fun slot mem => Nat.lt_succ_of_lt (packed.id_lt slot mem) }

/-- A new slot starts without bytes at the end of the data area. -/
theorem push (packed : Packed slots regionCount total) {id : Nat} (known : id < regionCount)
    (closed : ∀ slot ∈ slots, slot.id ≠ id) :
    Packed (slots ++ [⟨id, total, #[], 0⟩]) regionCount total where
  nodup := by
    rw [List.map_append, List.nodup_append]
    refine ⟨packed.nodup, by simp, ?_⟩
    intro old mem new new_mem
    obtain ⟨slot, slot_mem, rfl⟩ := List.mem_map.1 mem
    rw [List.mem_singleton.1 new_mem]
    exact closed slot slot_mem
  id_lt := List.forall_mem_append.2 ⟨packed.id_lt, by simpa using known⟩
  items_le := List.forall_mem_append.2 ⟨packed.items_le, by simp⟩
  stop_le := List.forall_mem_append.2 ⟨packed.stop_le, by simp [Slot.stop]⟩
  apart first left second right different := by
    rcases List.mem_append.1 left with old | new <;>
      rcases List.mem_append.1 right with old' | new'
    · exact packed.apart first old second old' different
    · rw [List.mem_singleton.1 new']
      exact .inl (packed.stop_le first old)
    · rw [List.mem_singleton.1 new]
      exact .inr (packed.stop_le second old')
    · rw [List.mem_singleton.1 new, List.mem_singleton.1 new'] at different
      exact absurd rfl different
  covered place inside := by
    obtain ⟨slot, mem, range⟩ := packed.covered place inside
    exact ⟨slot, List.mem_append_left _ mem, range⟩

theorem nodup_map {f : Slot → Slot} (id_eq : ∀ slot, (f slot).id = slot.id)
    (nodup : (slots.map Slot.id).Nodup) : ((slots.map f).map Slot.id).Nodup := by
  have same : (slots.map f).map Slot.id = slots.map Slot.id := by
    rw [List.map_map]
    exact List.map_congr_left fun slot _ => id_eq slot
  rwa [same]

/-- Edits that leave the ranges alone. -/
theorem edit (packed : Packed slots regionCount total) {f : Slot → Slot}
    (id_eq : ∀ slot, (f slot).id = slot.id) (items_eq : ∀ slot, (f slot).items = slot.items)
    (offset_eq : ∀ slot, (f slot).offset = slot.offset)
    (stop_eq : ∀ slot, (f slot).stop = slot.stop) : Packed (slots.map f) regionCount total where
  nodup := nodup_map id_eq packed.nodup
  id_lt := List.forall_mem_map.2 fun slot mem => by simpa only [id_eq] using packed.id_lt slot mem
  items_le := List.forall_mem_map.2 fun slot mem => by
    simpa only [items_eq] using packed.items_le slot mem
  stop_le := List.forall_mem_map.2 fun slot mem => by
    simpa only [stop_eq] using packed.stop_le slot mem
  apart := List.forall_mem_map.2 fun first left => List.forall_mem_map.2 fun second right => by
    simpa only [Slot.Apart, id_eq, stop_eq, offset_eq] using packed.apart first left second right
  covered place inside := by
    obtain ⟨slot, mem, range⟩ := packed.covered place inside
    refine ⟨f slot, List.mem_map_of_mem mem, ?_⟩
    rwa [offset_eq, stop_eq]

/-- Where a slot is after a run was put at the end of `target`, whose slot may be this one. -/
theorem range_grow (packed : Packed slots regionCount total) {target slot : Slot}
    (at_target : target ∈ slots) (mem : slot ∈ slots) (run : Array UInt8) (items : Nat) :
    let grown := slot.grow target run items
    (slot = target ∧ grown.offset = slot.offset ∧ grown.stop = slot.stop + run.size) ∨
    (slot.id ≠ target.id ∧ target.stop ≤ slot.offset ∧
      grown.offset = slot.offset + run.size ∧ grown.stop = slot.stop + run.size) ∨
    (slot.id ≠ target.id ∧ slot.offset < target.stop ∧ slot.stop ≤ target.offset ∧
      grown.offset = slot.offset ∧ grown.stop = slot.stop) := by
  intro grown
  by_cases same : slot.id = target.id
  · -- Only the target itself has its id.
    obtain rfl := packed.eq_of_id mem at_target same
    refine .inl ⟨rfl, ?_, ?_⟩
    · simp only [grown, Slot.grow_self]
    · simp only [grown, Slot.grow_self, Slot.stop, Array.size_append, Nat.add_assoc]
  · have apart := packed.apart slot mem target at_target same
    unfold Slot.Apart at apart
    simp only [grown, Slot.grow_other same, Slot.raise]
    split
    · rename_i behind
      exact .inr (.inl ⟨same, behind, rfl, by simp only [Slot.stop]; omega⟩)
    · rename_i before
      exact .inr (.inr ⟨same, by omega, by omega, rfl, rfl⟩)

/-- Two slots that lie apart still do when both have moved. -/
theorem apart_grow (packed : Packed slots regionCount total) {target first second : Slot}
    (at_target : target ∈ slots) (left : first ∈ slots) (right : second ∈ slots)
    (different : first.id ≠ second.id) (run : Array UInt8) (items : Nat) :
    (first.grow target run items).stop ≤ (second.grow target run items).offset ∨
      (second.grow target run items).stop ≤ (first.grow target run items).offset := by
  have apart := packed.apart first left second right different
  have here := packed.range_grow at_target left run items
  have there := packed.range_grow at_target right run items
  have ends := first.offset_le_stop
  have ends' := second.offset_le_stop
  have ends'' := target.offset_le_stop
  simp only [Slot.Apart] at here there apart
  -- Each of the two is the target, behind it or in front of it.
  rcases here with ⟨rfl, here⟩ | here | here <;>
    rcases there with ⟨rfl, there⟩ | there | there <;> omega

/-- No place is left out by a run put at the end of a slot. -/
theorem covered_grow (packed : Packed slots regionCount total) {target : Slot}
    (at_target : target ∈ slots) (run : Array UInt8) (items : Nat) {place : Nat}
    (inside : place < total + run.size) :
    ∃ slot ∈ slots, (slot.grow target run items).offset ≤ place ∧
      place < (slot.grow target run items).stop := by
  have at_end := packed.stop_le target at_target
  have ends := target.offset_le_stop
  have own := packed.range_grow at_target at_target run items
  simp only [ne_eq, not_true_eq_false, false_and, or_false, true_and] at own
  rcases Nat.lt_or_ge place target.stop with front | behind
  · -- Nothing moved here.
    obtain ⟨slot, mem, range⟩ := packed.covered place (by omega)
    have after := packed.range_grow at_target mem run items
    exact ⟨slot, mem, by simp only at after; omega⟩
  rcases Nat.lt_or_ge place (target.stop + run.size) with added | raised
  · -- The run itself, which belongs to the target.
    exact ⟨target, at_target, by omega⟩
  · -- What moved up by the length of the run.
    obtain ⟨slot, mem, range⟩ := packed.covered (place - run.size) (by omega)
    have after := packed.range_grow at_target mem run items
    refine ⟨slot, mem, ?_⟩
    simp only at after
    rcases after with ⟨rfl, after⟩ | after | after <;> omega

theorem grow (packed : Packed slots regionCount total) {target : Slot} (at_target : target ∈ slots)
    (run : Array UInt8) (items : Nat) :
    Packed (slots.map (·.grow target run items)) regionCount (total + run.size) where
  nodup := nodup_map (fun _ => Slot.id_grow run items) packed.nodup
  id_lt := List.forall_mem_map.2 fun slot mem => by simpa using packed.id_lt slot mem
  items_le := List.forall_mem_map.2 fun slot mem => by
    unfold Slot.grow
    split
    · exact Nat.min_le_right _ _
    · simpa using packed.items_le slot mem
  stop_le := List.forall_mem_map.2 fun slot mem => by
    have inside := packed.stop_le slot mem
    have range := packed.range_grow at_target mem run items
    simp only at range
    omega
  apart := List.forall_mem_map.2 fun first left => List.forall_mem_map.2 fun second right => by
    intro different
    rw [Slot.id_grow, Slot.id_grow] at different
    exact packed.apart_grow at_target left right different run items
  covered place inside := by
    obtain ⟨slot, mem, range⟩ := packed.covered_grow at_target run items inside
    exact ⟨_, List.mem_map_of_mem mem, range⟩

/-! ## Taking a slot out -/

/-- The slots without the one at an index are those of the other regions. -/
theorem mem_eraseIdx (packed : Packed slots regionCount total) {k : Nat} {target slot : Slot}
    (found : slots[k]? = some target) :
    slot ∈ slots.eraseIdx k ↔ slot ∈ slots ∧ slot.id ≠ target.id := by
  rw [List.mem_eraseIdx_iff_getElem?]
  constructor
  · rintro ⟨i, elsewhere, here⟩
    exact ⟨List.mem_of_getElem? here, packed.id_ne here found elsewhere⟩
  · rintro ⟨mem, other⟩
    obtain ⟨i, here⟩ := List.mem_iff_getElem?.1 mem
    refine ⟨i, ?_, here⟩
    rintro rfl
    exact other (congrArg Slot.id (Option.some.inj (here.symm.trans found)))

/-- Where the slot of another region is after `target` was taken out. -/
theorem range_lower (packed : Packed slots regionCount total) {target slot : Slot}
    (at_target : target ∈ slots) (mem : slot ∈ slots) (other : slot.id ≠ target.id) :
    let lowered := slot.lower target.stop target.content.size
    (target.stop ≤ slot.offset ∧ lowered.offset + target.content.size = slot.offset ∧
      lowered.stop + target.content.size = slot.stop) ∨
    (slot.offset < target.stop ∧ slot.stop ≤ target.offset ∧ lowered.offset = slot.offset ∧
      lowered.stop = slot.stop) := by
  intro lowered
  have apart := packed.apart slot mem target at_target other
  have ends : target.stop = target.offset + target.content.size := rfl
  unfold Slot.Apart at apart
  simp only [lowered, Slot.lower]
  split
  · simp only [Slot.stop] at *
    omega
  · exact .inr (by omega)

/-- No place is left out by taking a slot out. -/
theorem covered_lower (packed : Packed slots regionCount total) {target : Slot}
    (at_target : target ∈ slots) {place : Nat} (inside : place < total - target.content.size) :
    ∃ slot ∈ slots, slot.id ≠ target.id ∧
      (slot.lower target.stop target.content.size).offset ≤ place ∧
      place < (slot.lower target.stop target.content.size).stop := by
  have at_end := packed.stop_le target at_target
  have ends : target.stop = target.offset + target.content.size := rfl
  have elsewhere {slot : Slot} {at_place : Nat} (mem : slot ∈ slots)
      (range : slot.offset ≤ at_place ∧ at_place < slot.stop)
      (outside : at_place < target.offset ∨ target.stop ≤ at_place) : slot.id ≠ target.id := by
    intro same
    obtain rfl := packed.eq_of_id mem at_target same
    omega
  -- What is at a place in front of the gap was there before; what is behind it comes from above.
  rcases Nat.lt_or_ge place target.offset with front | behind
  · obtain ⟨slot, mem, range⟩ := packed.covered place (by omega)
    have other := elsewhere mem range (by omega)
    have after := packed.range_lower at_target mem other
    exact ⟨slot, mem, other, by simp only at after; omega⟩
  · obtain ⟨slot, mem, range⟩ := packed.covered (place + target.content.size) (by omega)
    have other := elsewhere mem range (by omega)
    have after := packed.range_lower at_target mem other
    exact ⟨slot, mem, other, by simp only at after; omega⟩

theorem remove (packed : Packed slots regionCount total) {k : Nat} {target : Slot}
    (found : slots[k]? = some target) :
    Packed ((slots.eraseIdx k).map (·.lower target.stop target.content.size)) regionCount
      (total - target.content.size) := by
  have at_target : target ∈ slots := List.mem_of_getElem? found
  have at_end := packed.stop_le target at_target
  have ends : target.stop = target.offset + target.content.size := rfl
  have others {slot : Slot} : slot ∈ slots.eraseIdx k ↔ slot ∈ slots ∧ slot.id ≠ target.id :=
    packed.mem_eraseIdx found
  refine ⟨?_, ?_, ?_, ?_, ?_, ?_⟩
  · refine nodup_map (fun slot => Slot.id_lower slot _ _) ?_
    exact packed.nodup.sublist ((List.eraseIdx_sublist _ _).map _)
  · refine List.forall_mem_map.2 fun slot mem => ?_
    simpa using packed.id_lt slot (others.1 mem).1
  · refine List.forall_mem_map.2 fun slot mem => ?_
    simpa using packed.items_le slot (others.1 mem).1
  · refine List.forall_mem_map.2 fun slot mem => ?_
    obtain ⟨mem, other⟩ := others.1 mem
    have inside := packed.stop_le slot mem
    have range := packed.range_lower at_target mem other
    simp only at range
    omega
  · refine List.forall_mem_map.2 fun first left => List.forall_mem_map.2 fun second right => ?_
    intro different
    obtain ⟨left, other⟩ := others.1 left
    obtain ⟨right, other'⟩ := others.1 right
    rw [Slot.id_lower, Slot.id_lower] at different
    have apart := packed.apart first left second right different
    have here := packed.range_lower at_target left other
    have there := packed.range_lower at_target right other'
    have starts := first.offset_le_stop
    have starts' := second.offset_le_stop
    simp only [Slot.Apart] at here there apart ⊢
    omega
  · intro place inside
    obtain ⟨slot, mem, other, range⟩ := packed.covered_lower at_target inside
    exact ⟨_, List.mem_map_of_mem (others.2 ⟨mem, other⟩), range⟩

end Packed

end PooledBuffers.Regions
