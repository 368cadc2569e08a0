import PooledBuffers.Proofs.Regions.Refinement

/-!
# The areas of a region store

What is in the memory of a store between operations, in terms of the handles and headers that are
read from it.

* `RegionStore.Arranged` — the handles in use are the offsets of the headers, one each, and the
  ranges that the headers name lie side by side and fill the data area;
* `Settled.arranged` — a store that shows slots is arranged;
* `Arranged.exact` — no 32-bit sum or difference of what the areas hold wraps around;
* `RegionStore.stays_arranged` — from every start, after every run of operations.
-/

namespace PooledBuffers

open Regions

/-- One range of bytes ends before the other starts. An empty one is not inside another. -/
def Regions.Header.Apart (first second : Header) : Prop :=
  first.dataEnd ≤ second.dataOffset.toNat ∨ second.dataEnd ≤ first.dataOffset.toNat

namespace RegionStore

/-- The handle of a region as it is in memory. -/
def handleOf (store : RegionStore) (id : Nat) : UInt32 := store.handleAt (handleOffset id)

/-- The regions handed out whose handle is that of a header. -/
def activeIds (store : RegionStore) : List Nat :=
  (List.range store.regionCount).filter fun id => store.handleOf id ≠ emptyHandle

/-- The headers as they are in memory. -/
def headers (store : RegionStore) : List Header := store.headerOffsets.map store.headerAt

/-- How handles, headers and data are arranged. -/
structure Arranged (store : RegionStore) : Prop where
  handles_le : store.regionCount * handleSize ≤ store.handleCapacity
  headers_whole : headerSize ∣ store.headerLength
  headers_le : store.headerLength ≤ store.headerCapacity
  size_eq :
    store.bytes.size = store.handleCapacity + store.headerCapacity + store.dataLength
  dataLength_le : store.dataLength ≤ maxWord
  /-- The handles in use are the offsets of the headers, each of them once. -/
  handles_perm :
    (store.activeIds.map fun id => (store.handleOf id).toNat).Perm store.headerOffsets
  active_eq : store.activeIds.length = store.activeCount
  end_le : ∀ header ∈ store.headers, header.dataEnd ≤ store.dataLength
  apart : store.headers.Pairwise Header.Apart
  covered : ∀ place < store.dataLength, ∃ header ∈ store.headers,
    header.dataOffset.toNat ≤ place ∧ place < header.dataEnd

/-- The 32-bit sums and differences that operations take of headers and handles are the exact
ones. -/
structure Exact (store : RegionStore) : Prop where
  grow_eq : ∀ header ∈ store.headers, ∀ added, store.dataLength + added ≤ maxWord →
    (header.dataLength + .ofNat added).toNat = header.dataLength.toNat + added
  raise_eq : ∀ header ∈ store.headers, ∀ added, store.dataLength + added ≤ maxWord →
    (header.dataOffset + .ofNat added).toNat = header.dataOffset.toNat + added
  /-- Bytes behind those removed move down by no more than their offset. -/
  lower_eq : ∀ removed ∈ store.headers, ∀ header ∈ store.headers,
    removed.dataEnd ≤ header.dataOffset.toNat →
      (header.dataOffset - removed.dataLength).toNat + removed.dataLength.toNat =
        header.dataOffset.toNat
  removed_le : ∀ removed ∈ store.headers, removed.dataLength.toNat ≤ store.dataLength
  /-- A handle behind another one is behind the whole header of that one. -/
  handle_eq : ∀ id ∈ store.activeIds, ∀ other ∈ store.activeIds,
    store.handleOf id < store.handleOf other →
      (store.handleOf other - .ofNat headerSize).toNat + headerSize = (store.handleOf other).toNat

/-! ## The areas of a store that shows slots -/

variable {store : RegionStore} {pool : Pool UInt8} {sheet : Sheet} {slots : List Slot}

namespace Settled

/-- The header area is full of headers, one for each slot. -/
theorem headerOffsets_eq (settled : Settled (store, pool) sheet) (holds : sheet.Holds slots) :
    store.activeCount = slots.length ∧
      store.headerOffsets = (List.range slots.length).map (· * headerSize) := by
  obtain ⟨-, -, -, headerLength, -⟩ := settled.toShows.fields
  have count : store.activeCount = slots.length := by
    unfold activeCount
    rw [headerLength, holds.headerLength_eq, headerSize_eq, Nat.mul_div_cancel _ (by decide)]
  unfold headerOffsets
  rw [count]
  exact ⟨rfl, rfl⟩

theorem headers_eq (settled : Settled (store, pool) sheet) (holds : sheet.Holds slots) :
    store.headers = slots.map Slot.header := by
  unfold headers
  rw [(settled.headerOffsets_eq holds).2, List.map_map]
  refine List.ext_getElem (by simp only [List.length_map, List.length_range]) ?_
  intro k left right
  rw [List.length_map] at right
  have found : slots[k]? = some slots[k] := List.getElem?_eq_getElem right
  have inside : sheet.handleCapacity + k * 12 + 12 ≤ sheet.usedEnd := by
    have last := holds.lt_length found
    have used := holds.sized.headers_le_usedEnd
    omega
  rw [List.getElem_map, List.getElem_map, List.getElem_range]
  exact (settled.toShows.headerAt inside).trans (holds.header_eq found)

theorem handleOf_eq (settled : Settled (store, pool) sheet) (holds : sheet.Holds slots) {id : Nat}
    (known : id < sheet.regionCount) : store.handleOf id = sheet.handleOf id := by
  have handles := holds.sized.handle_le known
  exact settled.toShows.handleAt (Nat.le_trans handles sheet.handleCapacity_le_usedEnd)

theorem handleOf_slot (settled : Settled (store, pool) sheet) (holds : sheet.Holds slots) {k : Nat}
    {slot : Slot} (found : slots[k]? = some slot) :
    store.handleOf slot.id = UInt32.ofNat (k * headerSize) := by
  rw [settled.handleOf_eq holds (holds.packed.id_lt slot (List.mem_of_getElem? found))]
  exact holds.handle_eq found

theorem mem_activeIds (settled : Settled (store, pool) sheet) (holds : sheet.Holds slots)
    {id : Nat} : id ∈ store.activeIds ↔ id ∈ slots.map Slot.id := by
  obtain ⟨regions, -⟩ := settled.toShows.fields
  unfold activeIds
  rw [List.mem_filter, List.mem_range, regions, decide_eq_true_iff, List.mem_map]
  constructor
  · rintro ⟨known, active⟩
    rw [settled.handleOf_eq holds known] at active
    refine Decidable.of_not_not fun closed => active ?_
    exact holds.closed_eq known fun slot mem same => closed ⟨slot, mem, same⟩
  · rintro ⟨slot, mem, rfl⟩
    obtain ⟨k, found⟩ := List.mem_iff_getElem?.1 mem
    have inside := holds.lt_length found
    have small := holds.sized.headerLength_le
    rw [settled.handleOf_slot holds found]
    exact ⟨holds.packed.id_lt slot mem, Sheet.handle_ne_empty (by omega)⟩

/-- The active regions are those of the slots, in another order. -/
theorem activeIds_perm (settled : Settled (store, pool) sheet) (holds : sheet.Holds slots) :
    store.activeIds.Perm (slots.map Slot.id) :=
  (List.perm_ext_iff_of_nodup (List.nodup_range.filter _) holds.packed.nodup).2 fun _ =>
    settled.mem_activeIds holds

theorem handles_perm (settled : Settled (store, pool) sheet) (holds : sheet.Holds slots) :
    (store.activeIds.map fun id => (store.handleOf id).toNat).Perm store.headerOffsets := by
  -- In the order of the slots, the handles are the offsets from the first to the last.
  have ordered : (slots.map Slot.id).map (fun id => (store.handleOf id).toNat) =
      store.headerOffsets := by
    rw [(settled.headerOffsets_eq holds).2, List.map_map]
    refine List.ext_getElem (by simp only [List.length_map, List.length_range]) ?_
    intro k left right
    rw [List.length_map] at left
    have found : slots[k]? = some slots[k] := List.getElem?_eq_getElem left
    rw [List.getElem_map, List.getElem_map, List.getElem_range]
    exact (congrArg UInt32.toNat (settled.handleOf_slot holds found)).trans
      (holds.toNat_handle found)
  rw [← ordered]
  exact (settled.activeIds_perm holds).map _

/-- Headers are apart as their slots are. -/
theorem headers_apart (settled : Settled (store, pool) sheet) (holds : sheet.Holds slots) :
    store.headers.Pairwise Header.Apart := by
  rw [settled.headers_eq holds, List.pairwise_map]
  refine List.Pairwise.imp_of_mem ?_ (List.pairwise_map.1 holds.packed.nodup)
  intro first second left right different
  obtain ⟨start, -, -, stop⟩ := holds.toNat_header left
  obtain ⟨start', -, -, stop'⟩ := holds.toNat_header right
  have apart := holds.packed.apart first left second right different
  unfold Header.Apart
  rw [start, stop, start', stop']
  exact apart

/-- The cursor is behind the memory in use, which is what was written. -/
theorem size_bytes (settled : Settled (store, pool) sheet) :
    store.bytes.size = store.handleCapacity + store.headerCapacity + store.dataLength := by
  obtain ⟨-, handles, headers, -, data⟩ := settled.toShows.fields
  have position : store.writer.position = sheet.usedEnd := settled.position_eq
  have used : store.bytes = sheet.tape.stretch 0 sheet.usedEnd := by
    rw [← position]
    exact settled.toShows.writer.written_eq (Nat.le_of_eq position)
  rw [used, Tape.size_stretch, handles, headers, data]
  rfl

theorem arranged (settled : Settled (store, pool) sheet) (holds : sheet.Holds slots) :
    store.Arranged where
  handles_le := by
    obtain ⟨regions, handles, -⟩ := settled.toShows.fields
    rw [regions, handles]
    exact holds.sized.handles_le
  headers_whole := by
    obtain ⟨-, -, -, length, -⟩ := settled.toShows.fields
    rw [length, holds.headerLength_eq]
    exact Nat.dvd_mul_left _ _
  headers_le := by
    obtain ⟨-, -, headers, length, -⟩ := settled.toShows.fields
    rw [length, headers]
    exact holds.sized.headers_le
  size_eq := settled.size_bytes
  dataLength_le := by
    obtain ⟨-, -, -, -, data⟩ := settled.toShows.fields
    rw [data]
    exact holds.sized.dataLength_le
  handles_perm := settled.handles_perm holds
  active_eq := by
    rw [(settled.activeIds_perm holds).length_eq, List.length_map,
      (settled.headerOffsets_eq holds).1]
  end_le := by
    obtain ⟨-, -, -, -, data⟩ := settled.toShows.fields
    rw [settled.headers_eq holds, data]
    refine List.forall_mem_map.2 fun slot mem => ?_
    rw [(holds.toNat_header mem).2.2.2]
    exact holds.packed.stop_le slot mem
  apart := settled.headers_apart holds
  covered := by
    obtain ⟨-, -, -, -, data⟩ := settled.toShows.fields
    rw [settled.headers_eq holds, data]
    intro place inside
    obtain ⟨slot, mem, range⟩ := holds.packed.covered place inside
    obtain ⟨start, -, -, stop⟩ := holds.toNat_header mem
    refine ⟨slot.header, List.mem_map_of_mem mem, ?_⟩
    rw [start, stop]
    exact range

end Settled

/-! ## What is added and subtracted -/

theorem toNat_add_word {word : UInt32} {added : Nat} (small : word.toNat + added ≤ maxWord) :
    (word + .ofNat added).toNat = word.toNat + added := by
  have whole : maxWord < 2 ^ 32 := by decide
  rw [UInt32.toNat_add, toNat_word (Nat.le_trans (Nat.le_add_left _ _) small)]
  exact Nat.mod_eq_of_lt (Nat.lt_of_le_of_lt small whole)

theorem toNat_sub_word {word removed : UInt32} (small : removed.toNat ≤ word.toNat) :
    (word - removed).toNat + removed.toNat = word.toNat := by
  rw [UInt32.toNat_sub_of_le _ _ (UInt32.le_iff_toNat_le.2 small)]
  exact Nat.sub_add_cancel small

theorem Arranged.exists_offset (arranged : store.Arranged) {id : Nat}
    (active : id ∈ store.activeIds) : ∃ k, (store.handleOf id).toNat = k * headerSize := by
  have mem := arranged.handles_perm.mem_iff.1
    (List.mem_map_of_mem (f := fun id => (store.handleOf id).toNat) active)
  obtain ⟨k, -, offset⟩ := List.mem_map.1 mem
  exact ⟨k, offset.symm⟩

theorem Arranged.exact (arranged : store.Arranged) : store.Exact where
  grow_eq header mem added small := by
    have inside := arranged.end_le header mem
    unfold Header.dataEnd at inside
    exact toNat_add_word (by omega)
  raise_eq header mem added small := by
    have inside := arranged.end_le header mem
    unfold Header.dataEnd at inside
    exact toNat_add_word (by omega)
  lower_eq removed _ header _ behind :=
    toNat_sub_word (Nat.le_trans (Nat.le_add_left _ _) behind)
  removed_le removed mem := Nat.le_trans (Nat.le_add_left _ _) (arranged.end_le removed mem)
  handle_eq id active other active' behind := by
    -- Both are multiples of a header's width, so that they differ by one at least.
    obtain ⟨k, here⟩ := arranged.exists_offset active
    obtain ⟨j, there⟩ := arranged.exists_offset active'
    have order := UInt32.lt_iff_toNat_lt.1 behind
    have small : (UInt32.ofNat headerSize).toNat ≤ (store.handleOf other).toNat := by
      show headerSize ≤ _
      rw [here, there, headerSize_eq] at order
      rw [there, headerSize_eq]
      omega
    exact toNat_sub_word small

/-! ## Every start -/

theorem Simulates.arranged {table : Table} (simulates : Simulates (store, pool) table) :
    store.Arranged := by
  obtain ⟨sheet, slots, settled, holds, -⟩ := simulates
  exact settled.arranged holds

/-- From every start, and in whatever state its users left the pool, the areas of a store are
arranged after every run of operations. What operations add to and subtract from headers and
handles is exact there, and none of the bounds is missed that they rely on, be it at a moment of
the run or in one more operation. -/
theorem stays_arranged (start : Start) (pool : Pool UInt8) (reachable : pool.Reachable)
    (actions : List Action) :
    let first := start.make pool
    let last := (first.1.run first.2 actions).2
    last.1.Arranged ∧ last.1.Exact ∧ first.1.checkRun first.2 actions = .ok () ∧
      ∀ action, last.1.check last.2 action = .ok () := by
  intro first last
  obtain ⟨-, simulates, safe⟩ := (start.simulates reachable.sound).run actions
  have arranged : last.1.Arranged := simulates.arranged
  exact ⟨arranged, arranged.exact, safe, fun action => (simulates.perform action).2.2⟩

/-- Two regions with bytes, the first of which is cleared, so that header and byte of the other move
down. -/
theorem stays_arranged_cleared :
    let actions : List Action :=
      [.addRegion, .addRegion, .append 1 #[6, 7], .append 0 #[8], .clear 1]
    (Pool.standard : Pool UInt8).Reachable ∧
      ∃ first last, (Start.memory #[1, 2, 3, 4, 5]).make Pool.standard = first ∧
        (first.1.run first.2 actions).2 = last ∧ last.1.Arranged ∧
        (last.1.activeIds = [0] ∧ last.1.headers = [⟨0, 1, 0⟩]) := by
  intro actions
  obtain ⟨arranged, -⟩ :=
    stays_arranged (.memory #[1, 2, 3, 4, 5]) Pool.standard Pool.reachable_standard actions
  exact ⟨Pool.reachable_standard, _, _, rfl, rfl, arranged, by decide +kernel⟩

end RegionStore

end PooledBuffers
