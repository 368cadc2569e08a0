import PooledBuffers.Proofs.Regions.Operations

/-!
# Region stores are tables of byte strings

To its user a store is a table: each region has its bytes and a count of values, and an operation
on one region is not seen in any other. Where the bytes are, and what moves to make room for them,
is not part of the table.

* `Table.perform` — what an operation answers and does to the table;
* `Table.Fills` — the slots of a store are the regions of a table that something was put into.
-/

namespace PooledBuffers

open Regions

/-- The operations on a store. -/
inductive RegionStore.Action : Type 1 where
  | addRegion
  | append (id : Nat) (run : Array UInt8)
  | appendValue {τ : Type} [Layout τ] (id : Nat) (value : τ)
  /-- Stores a byte at an index into the bytes of a region. -/
  | setSpan (id index : Nat) (value : UInt8)
  | clear (id : Nat)
  | dispose

/-- Whether an operation is on other regions than this one. -/
def RegionStore.Action.spares : Action → Nat → Prop
  | .addRegion, _ => True
  | .append id _, other | @Action.appendValue _ _ id _, other | .setSpan id _ _, other
  | .clear id, other => id ≠ other
  | .dispose, _ => False

namespace Regions

open RegionStore (Action maxWord)

/-! ## Tables -/

/-- A region as its user sees it. -/
structure Region where
  content : Array UInt8 := #[]
  /-- How many values were appended. -/
  items : Nat := 0
  /-- Whether anything was put into the region, be it empty, since it was new or cleared. -/
  opened : Bool := false

/-- A region that is new or cleared. -/
def Region.blank : Region := {}

/-- The regions by their numbers. -/
abbrev Table := List Region

namespace Table

/-- The sum of a measure over all regions. -/
def sum (measure : Region → Nat) : Table → Nat
  | [] => 0
  | region :: rest => measure region + sum measure rest

def total (table : Table) : Nat := table.sum (·.content.size)

def openCount (table : Table) : Nat := table.sum (·.opened.toNat)

def read (table : Table) (id : Nat) : Except Error Region :=
  match table[id]? with
  | none => .error (.regionNotFound id)
  | some region => .ok region

/-- Puts a run behind the bytes of a region. What is counted in 32 bits is refused where it would
be more: the length of the run, the bytes of all regions, and the place of a new header. -/
def append (table : Table) (id : Nat) (run : Array UInt8) (items : Nat) : Except Error Table := do
  if maxWord < run.size then throw (.outOfRange "bytes.len()" run.size maxWord)
  if maxWord < table.total + run.size then
    throw (.outOfRange "data length" (table.total + run.size) maxWord)
  let region ← table.read id
  if region.opened = false ∧ maxWord < table.openCount * headerSize then
    throw (.outOfRange "header offset" (table.openCount * headerSize) maxWord)
  return table.set id ⟨region.content ++ run, region.items + items, true⟩

def store (table : Table) (id index : Nat) (value : UInt8) : Except Error (Option Table) := do
  let region ← table.read id
  return if index < region.content.size then
    some (table.set id { region with content := region.content.setIfInBounds index value })
  else none

def clear (table : Table) (id : Nat) : Except Error Table := do
  let _ ← table.read id
  return table.set id .blank

end Table

end Regions

/-! ## What operations answer -/

section Perform

open RegionStore (Action maxWord)

/-- The answer of an operation that may be refused; a refusal changes nothing. -/
def Regions.answer {σ : Type} (old : σ) : Except Error σ → Reply UInt8 × σ
  | .ok next => (.done, next)
  | .error refusal => (.refused refusal, old)

def Regions.Table.perform (table : Table) : Action → Reply UInt8 × Table
  | .addRegion =>
    if maxWord < table.length + 1 then
      (.refused (.outOfRange "region_count" maxWord (maxWord - 1)), table)
    else (.count table.length, table ++ [.blank])
  | .append id run => answer table (table.append id run 0)
  | @Action.appendValue τ _ id value =>
    answer table (do
      Layout.checkOrder τ .big
      table.append id (Layout.bytes .little value) 1)
  | .setSpan id index value =>
    match table.store id index value with
    | .ok next => (.flag next.isSome, next.getD table)
    | .error refusal => (.refused refusal, table)
  | .clear id => answer table (table.clear id)
  | .dispose => (.done, [])

namespace RegionStore

def perform (store : RegionStore) (pool : Pool UInt8) :
    Action → Reply UInt8 × RegionStore × Pool UInt8
  | .addRegion =>
    match store.addRegion pool with
    | .ok (id, next) => (.count id, next)
    | .error refusal => (.refused refusal, store, pool)
  | .append id run => answer (store, pool) (store.append id run pool)
  | @Action.appendValue _ _ id value => answer (store, pool) (store.appendValue id value pool)
  | .setSpan id index value =>
    match store.setSpan? id index value with
    | .ok next => (.flag next.isSome, next.getD store, pool)
    | .error refusal => (.refused refusal, store, pool)
  | .clear id => answer (store, pool) (store.clear id pool)
  | .dispose => (.done, store.dispose pool)

/-- The bounds that an operation relies on. -/
def check (store : RegionStore) (pool : Pool UInt8) : Action → Except Overrun Unit
  | .addRegion => store.checkAddRegion pool
  | .append id run => store.checkAppend id run 0 pool
  | @Action.appendValue τ _ id value => do
    if Layout.width τ ≤ maxSwapWidth then
      store.checkAppend id (Layout.bytes .little value) 1 pool
  | .setSpan id _ _ => store.checkSpan id
  | .clear id => store.checkClear id pool
  | .dispose => .ok ()

end RegionStore

end Perform

/-! ## Sums over a table -/

namespace Regions.Table

open RegionStore (maxWord)

variable {table : Table} {id : Nat} {old : Region}

theorem sum_concat (table : Table) (measure : Region → Nat) (new : Region) :
    Table.sum measure (table ++ [new]) = table.sum measure + measure new := by
  induction table with
  | nil => exact Nat.add_comm _ _
  | cons first rest ih =>
    show measure first + Table.sum measure (rest ++ [new]) = _
    rw [ih, Table.sum, Nat.add_assoc]

/-- A sum changes by what the region does that is exchanged. -/
theorem sum_set (measure : Region → Nat) (new : Region) (here : table[id]? = some old) :
    Table.sum measure (table.set id new) + measure old = table.sum measure + measure new := by
  induction table generalizing id with
  | nil => simp at here
  | cons first rest ih =>
    cases id with
    | zero =>
      obtain rfl : first = old := by simpa using here
      simp only [List.set_cons_zero, Table.sum]
      omega
    | succ id =>
      have below := ih here
      simp only [List.set_cons_succ, Table.sum]
      omega

/-! ## The slots of a table -/

/-- The slots of a store are the regions of a table that something was put into. -/
structure Fills (table : Table) (slots : List Slot) (regionCount total : Nat) : Prop where
  length_eq : table.length = regionCount
  total_eq : table.total = total
  openCount_eq : table.openCount = slots.length
  open_eq : ∀ slot ∈ slots, ∃ region, table[slot.id]? = some region ∧
    region.content = slot.content ∧ min region.items maxWord = slot.items ∧ region.opened = true
  closed_eq : ∀ {id : Nat} {region : Region}, table[id]? = some region →
    (∀ slot ∈ slots, slot.id ≠ id) → region = .blank

namespace Fills

variable {slots : List Slot} {regionCount total : Nat}

theorem nil : Fills [] [] 0 0 where
  length_eq := rfl
  total_eq := rfl
  openCount_eq := rfl
  open_eq := by simp
  closed_eq := by simp

theorem add_region (fills : Fills table slots regionCount total) :
    Fills (table ++ [.blank]) slots (regionCount + 1) total where
  length_eq := by rw [List.length_append, fills.length_eq, List.length_singleton]
  total_eq := (sum_concat table _ _).trans fills.total_eq
  openCount_eq := (sum_concat table _ _).trans fills.openCount_eq
  open_eq slot mem := by
    obtain ⟨region, here, same⟩ := fills.open_eq slot mem
    have inside := (List.getElem?_eq_some_iff.1 here).1
    exact ⟨region, by rwa [List.getElem?_append_left inside], same⟩
  closed_eq {id region} here closed := by
    rw [List.getElem?_append] at here
    split at here
    · exact fills.closed_eq here closed
    · rw [List.getElem?_singleton, Option.ite_none_right_eq_some, Option.some.injEq] at here
      exact here.2.symm

/-- A blank region is opened, with an empty slot behind all others. -/
theorem push (fills : Fills table slots regionCount total) (here : table[id]? = some .blank)
    (closed : ∀ slot ∈ slots, slot.id ≠ id) (offset : Nat) :
    Fills (table.set id { opened := true }) (slots ++ [⟨id, offset, #[], 0⟩]) regionCount
      total where
  length_eq := by rw [List.length_set, fills.length_eq]
  total_eq := (sum_set (·.content.size) { opened := true } here).trans fills.total_eq
  openCount_eq := by
    rw [List.length_append, ← fills.openCount_eq]
    exact sum_set (·.opened.toNat) { opened := true } here
  open_eq slot mem := by
    -- The new slot is that of the region opened; every other one is of another region.
    rcases List.mem_append.1 mem with old | new
    · rw [List.getElem?_set_ne (Ne.symm (closed slot old))]
      exact fills.open_eq slot old
    · obtain rfl := List.mem_singleton.1 new
      rw [List.getElem?_set_self (List.getElem?_eq_some_iff.1 here).1]
      exact ⟨_, rfl, rfl, rfl, rfl⟩
  closed_eq {other region} found free := by
    have different : id ≠ other := free _ (List.mem_append_right _ (List.mem_singleton_self _))
    rw [List.getElem?_set_ne different] at found
    exact fills.closed_eq found fun slot mem => free slot (List.mem_append_left _ mem)

/-- One region is exchanged and its slot with it; all other slots may move. -/
theorem edit (fills : Fills table slots regionCount total) {f : Slot → Slot} {new : Region}
    (here : table[id]? = some old) (id_eq : ∀ slot, (f slot).id = slot.id)
    (own : ∀ slot ∈ slots, slot.id = id → new.content = (f slot).content ∧
      min new.items maxWord = (f slot).items)
    (others : ∀ slot ∈ slots, slot.id ≠ id → (f slot).content = slot.content ∧
      (f slot).items = slot.items)
    (opened : old.opened = true) (opened' : new.opened = true) {total' : Nat}
    (size : total' + old.content.size = total + new.content.size) :
    Fills (table.set id new) (slots.map f) regionCount total' where
  length_eq := by rw [List.length_set, fills.length_eq]
  total_eq := by
    have sum := sum_set (·.content.size) new here
    have before := fills.total_eq
    unfold Table.total at before ⊢
    omega
  openCount_eq := by
    have sum := sum_set (·.opened.toNat) new here
    have before := fills.openCount_eq
    rw [List.length_map]
    unfold Table.openCount at before ⊢
    rw [opened, opened'] at sum
    omega
  open_eq := List.forall_mem_map.2 fun slot mem => by
    rw [id_eq]
    by_cases same : slot.id = id
    · rw [same, List.getElem?_set_self (List.getElem?_eq_some_iff.1 here).1]
      exact ⟨new, rfl, (own slot mem same).1, (own slot mem same).2, opened'⟩
    · rw [List.getElem?_set_ne (Ne.symm same), (others slot mem same).1, (others slot mem same).2]
      exact fills.open_eq slot mem
  closed_eq {other region} found free := by
    by_cases same : other = id
    · -- The region that was exchanged is open, so that it has a slot.
      have blank := fills.closed_eq here fun slot mem taken =>
        free _ (List.mem_map_of_mem mem) ((id_eq slot).trans (taken.trans same.symm))
      rw [blank] at opened
      cases opened
    · rw [List.getElem?_set_ne (Ne.symm same)] at found
      refine fills.closed_eq found fun slot mem taken => ?_
      exact free _ (List.mem_map_of_mem mem) ((id_eq slot).trans taken)

theorem remove (fills : Fills table slots regionCount total)
    (packed : Packed slots regionCount total) {k : Nat} {target : Slot}
    (at_target : slots[k]? = some target) :
    Fills (table.set target.id .blank)
      ((slots.eraseIdx k).map (·.lower target.stop target.content.size)) regionCount
      (total - target.content.size) := by
  have mem_target := List.mem_of_getElem? at_target
  obtain ⟨region, here, content, -, opened⟩ := fills.open_eq target mem_target
  have size := sum_set (·.content.size) .blank here
  have count := sum_set (·.opened.toNat) .blank here
  have total_eq := fills.total_eq
  have openCount_eq := fills.openCount_eq
  unfold Table.total at total_eq
  unfold Table.openCount at openCount_eq
  refine ⟨?_, ?_, ?_, ?_, ?_⟩
  · rw [List.length_set, fills.length_eq]
  · -- The sum loses what the region had, since a blank region adds nothing to it.
    have blank : Region.blank.content.size = 0 := rfl
    unfold Table.total
    rw [content, blank] at size
    omega
  · have some_slot := (List.getElem?_eq_some_iff.1 at_target).1
    have blank : Region.blank.opened.toNat = 0 := rfl
    rw [List.length_map, List.length_eraseIdx_of_lt some_slot]
    unfold Table.openCount
    rw [opened, Bool.toNat_true, blank] at count
    omega
  · refine List.forall_mem_map.2 fun slot mem => ?_
    obtain ⟨mem, other⟩ := (packed.mem_eraseIdx at_target).1 mem
    rw [Slot.id_lower, Slot.content_lower, Slot.items_lower, List.getElem?_set_ne (Ne.symm other)]
    exact fills.open_eq slot mem
  · intro id region found free
    by_cases same : id = target.id
    · rw [same, List.getElem?_set_self (List.getElem?_eq_some_iff.1 here).1] at found
      exact (Option.some.inj found).symm
    · rw [List.getElem?_set_ne (Ne.symm same)] at found
      refine fills.closed_eq found fun slot mem taken => ?_
      have stays := (packed.mem_eraseIdx at_target).2 ⟨mem, fun here => same (taken ▸ here)⟩
      exact free _ (List.mem_map_of_mem stays) ((Slot.id_lower _ _ _).trans taken)

variable {target : Slot} (packed : Packed slots regionCount total) (mem_target : target ∈ slots)
  (here : table[target.id]? = some old) (content_eq : old.content = target.content)
  (items_eq : min old.items maxWord = target.items) (opened : old.opened = true)

include packed mem_target here content_eq items_eq opened

theorem grow (fills : Fills table slots regionCount total) (run : Array UInt8) (items : Nat) :
    Fills (table.set target.id ⟨old.content ++ run, old.items + items, true⟩)
      (slots.map (·.grow target run items)) regionCount (total + run.size) := by
  refine fills.edit here (fun _ => Slot.id_grow run items) (fun slot mem same => ?_)
    (fun slot mem other => ?_) opened rfl ?_
  · obtain rfl := packed.eq_of_id mem mem_target same
    rw [Slot.grow_self, content_eq, ← items_eq]
    -- A count that has stopped at the largest word stays there, on both sides.
    exact ⟨rfl, by simp only; omega⟩
  · rw [Slot.grow_other other, Slot.content_raise, Slot.items_raise]
    exact ⟨rfl, rfl⟩
  · rw [Array.size_append]
    omega

theorem store (fills : Fills table slots regionCount total) (index : Nat) (value : UInt8) :
    Fills (table.set target.id { old with content := old.content.setIfInBounds index value })
      (slots.map (·.store target.id index value)) regionCount total := by
  refine fills.edit here (fun slot => slot.id_store _ _ _) (fun slot mem same => ?_)
    (fun slot mem other => ?_) opened ?_ ?_
  · obtain rfl := packed.eq_of_id mem mem_target same
    rw [Slot.store, if_pos rfl, content_eq]
    exact ⟨rfl, items_eq⟩
  · rw [Slot.store, if_neg other]
    exact ⟨rfl, rfl⟩
  · exact opened
  · rw [Array.size_setIfInBounds]

end Fills

end Regions.Table

end PooledBuffers
