import PooledBuffers.Proofs.Regions.Table

/-!
# Region stores do what their tables do

* `RegionStore.Simulates` — the relation between a store and a table;
* `Simulates.perform`, `Simulates.run` — one operation, and any number of them;
* `RegionStore.run_eq_table` — from every start, after every run of operations.
-/

namespace PooledBuffers

open Regions

/-! ## One operation -/

namespace RegionStore

/-- A store whose slots are the regions of a table. -/
def Simulates (state : RegionStore × Pool UInt8) (table : Table) : Prop :=
  ∃ sheet slots, Settled state sheet ∧ sheet.Holds slots ∧
    table.Fills slots sheet.regionCount sheet.dataLength

/-- Both answer with a state, and these agree; or both refuse for the same reason. -/
def Agree : Except Error (RegionStore × Pool UInt8) → Except Error Table → Prop
  | .ok state, .ok table => Simulates state table
  | .error refusal, .error expected => refusal = expected
  | _, _ => False

variable {store : RegionStore} {pool : Pool UInt8} {table : Table}

theorem Simulates.answer (simulates : Simulates (store, pool) table)
    {result : Except Error (RegionStore × Pool UInt8)} {expected : Except Error Table}
    (agree : Agree result expected) :
    (Regions.answer (store, pool) result).1 = (Regions.answer table expected).1 ∧
      Simulates (Regions.answer (store, pool) result).2 (Regions.answer table expected).2 := by
  cases result with
  | ok state =>
    cases expected with
    | ok table => exact ⟨rfl, agree⟩
    | error refusal => cases agree
  | error refusal =>
    cases expected with
    | ok table => cases agree
    | error expected => exact ⟨congrArg Reply.refused agree, simulates⟩

/-- A region is unknown, or nothing was put into it, or it has a slot. -/
theorem lookup_cases {slots : List Slot} {regionCount total : Nat}
    (fills : table.Fills slots regionCount total) (id : Nat) :
    (regionCount ≤ id ∧ table.read id = .error (.regionNotFound id)) ∨
    (id < regionCount ∧ (∀ slot ∈ slots, slot.id ≠ id) ∧ table[id]? = some .blank ∧
      table.read id = .ok .blank) ∨
    ∃ (k : Nat) (slot : Slot) (region : Region), slots[k]? = some slot ∧ slot.id = id ∧
      table[id]? = some region ∧ table.read id = .ok region ∧ region.content = slot.content ∧
      min region.items maxWord = slot.items ∧ region.opened = true := by
  unfold Table.read
  -- The three cases of a lookup in the store: no handle, an empty handle, and a header.
  cases here : table[id]? with
  | none =>
    have outside := List.getElem?_eq_none_iff.1 here
    rw [fills.length_eq] at outside
    exact .inl ⟨outside, rfl⟩
  | some region =>
    have inside := (List.getElem?_eq_some_iff.1 here).1
    rw [fills.length_eq] at inside
    by_cases opened : ∃ slot ∈ slots, slot.id = id
    · obtain ⟨slot, mem, same⟩ := opened
      obtain ⟨k, found⟩ := List.mem_iff_getElem?.1 mem
      obtain ⟨own, there, facts⟩ := fills.open_eq slot mem
      rw [same, here, Option.some.injEq] at there
      subst there
      exact .inr (.inr ⟨k, slot, region, found, same, rfl, rfl, facts⟩)
    · have closed : ∀ slot ∈ slots, slot.id ≠ id := fun slot mem same => opened ⟨slot, mem, same⟩
      have blank := fills.closed_eq here closed
      rw [blank]
      exact .inr (.inl ⟨inside, closed, rfl, rfl⟩)

section Append

variable {id items : Nat} {run : Array UInt8}

theorem append_eq (short : run.size ≤ maxWord) (fits : table.total + run.size ≤ maxWord) :
    table.append id run items = (do
      let region ← table.read id
      if region.opened = false ∧ maxWord < table.openCount * headerSize then
        throw (.outOfRange "header offset" (table.openCount * headerSize) maxWord)
      return table.set id ⟨region.content ++ run, region.items + items, true⟩) := by
  unfold Table.append
  rw [if_neg (Nat.not_lt.2 short), if_neg (Nat.not_lt.2 fits)]

/-- The first bytes of a region: it is opened on both sides, unless its header would be too far
behind. -/
theorem Settled.appendItems_closed {sheet : Sheet} {slots : List Slot}
    (settled : Settled (store, pool) sheet) (holds : sheet.Holds slots)
    (fills : table.Fills slots sheet.regionCount sheet.dataLength) (known : id < sheet.regionCount)
    (closed : ∀ slot ∈ slots, slot.id ≠ id) (here : table[id]? = some .blank)
    (small : sheet.dataLength + run.size ≤ maxWord) :
    Agree (store.appendItems id run items pool)
        (if Region.blank.opened = false ∧ maxWord < table.openCount * headerSize then
          .error (.outOfRange "header offset" (table.openCount * headerSize) maxWord)
        else .ok (table.set id ⟨Region.blank.content ++ run, Region.blank.items + items, true⟩)) ∧
      store.checkAppend id run items pool = .ok () := by
  have shows := settled.toShows
  have headers : table.openCount * headerSize = sheet.headerLength := by
    rw [fills.openCount_eq, holds.headerLength_eq, headerSize_eq]
  rw [headers]
  by_cases last : maxWord < sheet.headerLength
  · obtain ⟨refused, safe⟩ := shows.appendItems_headers small holds known closed last items
    rw [refused, if_pos ⟨rfl, last⟩]
    exact ⟨rfl, safe⟩
  · obtain ⟨next, done, settled', safe⟩ :=
      shows.appendItems_closed small holds known closed (by omega) items
    obtain ⟨regions, data⟩ := sheet.openRegion_fields id
    have opened := holds.openRegion known closed (by omega)
    have packed := opened.packed
    rw [regions, data] at packed
    have new : (slots ++ [Slot.mk id sheet.dataLength #[] 0])[slots.length]? =
      some ⟨id, sheet.dataLength, #[], 0⟩ := List.getElem?_concat_length
    have inside := (List.getElem?_eq_some_iff.1 here).1
    -- The table gets both at once, so that what was pushed is set once more.
    have grown := (fills.push here closed sheet.dataLength).grow packed
      (List.mem_of_getElem? new) (List.getElem?_set_self inside) rfl rfl rfl run items
    obtain ⟨tape, fields⟩ := (sheet.openRegion id).insert_fields (.ofNat (slots.length * 12))
      (Slot.mk id sheet.dataLength #[] 0).header run items
    rw [done, if_neg (fun both => last both.2)]
    refine ⟨⟨_, _, settled', opened.insert new (data ▸ small) items, ?_⟩, safe⟩
    rw [fields]
    simp only [regions, data]
    rw [List.set_set] at grown
    exact grown

theorem Simulates.appendItems (simulates : Simulates (store, pool) table) (id : Nat)
    (run : Array UInt8) (items : Nat) :
    Agree (store.appendItems id run items pool) (table.append id run items) ∧
      store.checkAppend id run items pool = .ok () := by
  obtain ⟨sheet, slots, settled, holds, fills⟩ := simulates
  have shows := settled.toShows
  -- The refusals come in the order in which both sides look for them.
  by_cases long : maxWord < run.size
  · obtain ⟨refused, safe⟩ := Shows.appendItems_long store pool id items long
    rw [refused, Table.append, if_pos long]
    exact ⟨rfl, safe⟩
  by_cases full : maxWord < sheet.dataLength + run.size
  · obtain ⟨refused, safe⟩ := shows.appendItems_full id items (by omega) full holds.sized
    rw [refused, Table.append, if_neg long, fills.total_eq, if_pos full]
    exact ⟨rfl, safe⟩
  have small : sheet.dataLength + run.size ≤ maxWord := by omega
  rw [append_eq (by omega) (fills.total_eq ▸ small)]
  rcases lookup_cases fills id with ⟨unknown, read⟩ | ⟨known, closed, here, read⟩ |
    ⟨k, slot, region, found, rfl, here, read, content, count, opened⟩
  · obtain ⟨refused, safe⟩ := shows.appendItems_unknown small unknown items
    rw [refused, read]
    exact ⟨rfl, safe⟩
  · rw [read]
    exact settled.appendItems_closed holds fills known closed here small
  · obtain ⟨next, done, settled', safe⟩ := shows.appendItems_open small holds found items
    have grown := fills.grow holds.packed (List.mem_of_getElem? found) here content count opened
      run items
    obtain ⟨tape, fields⟩ := sheet.insert_fields (.ofNat (k * 12)) slot.header run items
    rw [done, read]
    refine ⟨?_, safe⟩
    show Agree _ (if region.opened = false ∧ _ then _ else _)
    rw [if_neg (fun both => by rw [opened] at both; cases both.1)]
    refine ⟨_, _, settled', holds.insert found small items, ?_⟩
    rw [fields]
    exact grown

end Append

theorem Simulates.clear (simulates : Simulates (store, pool) table) (id : Nat) :
    Agree (store.clear id pool) (table.clear id) ∧ store.checkClear id pool = .ok () := by
  obtain ⟨sheet, slots, settled, holds, fills⟩ := simulates
  have shows := settled.toShows
  unfold Table.clear
  rcases lookup_cases fills id with ⟨unknown, read⟩ | ⟨known, closed, here, read⟩ |
    ⟨k, slot, region, found, rfl, here, read, -⟩
  · obtain ⟨refused, safe⟩ := shows.clear_unknown unknown
    rw [refused, read]
    exact ⟨rfl, safe⟩
  · obtain ⟨done, safe⟩ := shows.clear_closed holds known closed
    rw [done, read]
    -- What is blank already is exchanged for itself.
    have same : table.set id .blank = table := by
      obtain ⟨inside, blank⟩ := List.getElem?_eq_some_iff.1 here
      rw [← blank, List.set_getElem_self]
    refine ⟨?_, safe⟩
    show Simulates (store, pool) (table.set id .blank)
    rw [same]
    exact ⟨sheet, slots, settled, holds, fills⟩
  · obtain ⟨next, done, settled', safe⟩ := shows.clear_open holds found
    obtain ⟨-, length, -, -⟩ := holds.toNat_header (List.mem_of_getElem? found)
    have removed := fills.remove holds.packed found
    obtain ⟨tape, fields⟩ := sheet.remove_fields slot.id (.ofNat (k * 12)) slot.header
    rw [done, read]
    refine ⟨⟨_, _, settled', holds.remove found, ?_⟩, safe⟩
    rw [fields, length]
    exact removed

theorem Simulates.addRegion (simulates : Simulates (store, pool) table)
    (small : table.length + 1 ≤ maxWord) :
    ∃ next, store.addRegion pool = .ok (table.length, next) ∧
      Simulates next (table ++ [.blank]) ∧ store.checkAddRegion pool = .ok () := by
  obtain ⟨sheet, slots, settled, holds, fills⟩ := simulates
  have count := fills.length_eq
  rw [count] at small ⊢
  obtain ⟨next, done, settled', safe⟩ := settled.toShows.addRegion holds small
  obtain ⟨added, regionCount, dataLength⟩ := holds.addRegion small
  refine ⟨next, done, ⟨_, _, settled', added, ?_⟩, safe⟩
  rw [regionCount, dataLength]
  exact fills.add_region

theorem addRegion_full (pool : Pool UInt8) (full : maxWord < store.regionCount + 1) :
    store.addRegion pool = .error (.outOfRange "region_count" maxWord (maxWord - 1)) ∧
      store.checkAddRegion pool = .ok () := by
  constructor
  · unfold RegionStore.addRegion
    simp only [full, ↓reduceIte]
    rfl
  · unfold checkAddRegion
    exact if_neg (by omega)

theorem store_of_read {id : Nat} {region : Region} (read : table.read id = .ok region) (index : Nat)
    (value : UInt8) :
    table.store id index value = .ok (if index < region.content.size then
      some (table.set id { region with content := region.content.setIfInBounds index value })
      else none) := by
  unfold Table.store
  rw [read]
  rfl

theorem Simulates.setSpan (simulates : Simulates (store, pool) table) (id index : Nat)
    (value : UInt8) :
    (store.perform pool (.setSpan id index value)).1 = (table.perform (.setSpan id index value)).1 ∧
      Simulates (store.perform pool (.setSpan id index value)).2
        (table.perform (.setSpan id index value)).2 ∧
      store.checkSpan id = .ok () := by
  have same := simulates
  obtain ⟨sheet, slots, settled, holds, fills⟩ := simulates
  have shows := settled.toShows
  unfold RegionStore.perform Table.perform
  rcases lookup_cases fills id with ⟨unknown, read⟩ | ⟨known, closed, here, read⟩ |
    ⟨k, slot, region, found, rfl, here, read, content, count, opened⟩
  · have refused : table.store id index value = .error (.regionNotFound id) := by
      unfold Table.store
      rw [read]
      rfl
    obtain ⟨-, -, -, safe⟩ := shows.reads_unknown unknown
    simp only [shows.setSpan_unknown unknown, refused]
    exact ⟨trivial, same, safe⟩
  · obtain ⟨-, -, -, safe⟩ := shows.reads_closed holds known closed
    have outside : ¬ index < Region.blank.content.size := Nat.not_lt_zero _
    simp only [shows.setSpan_closed holds known closed, store_of_read read, if_neg outside]
    exact ⟨rfl, same, safe⟩
  · have mem := List.mem_of_getElem? found
    obtain ⟨-, -, -, safe⟩ := shows.reads_open holds mem
    by_cases inside : index < slot.content.size
    · obtain ⟨next, done, settled'⟩ := settled.setSpan_inside holds mem inside value
      have stored := fills.store holds.packed mem here content count opened index value
      simp only [done, store_of_read read, content, if_pos inside]
      rw [content] at stored
      exact ⟨rfl, ⟨_, _, settled', holds.storeByte mem inside value, stored⟩, safe⟩
    · have outside := shows.setSpan_outside holds mem (Nat.le_of_not_lt inside) value
      simp only [outside, store_of_read read, content, if_neg inside]
      exact ⟨rfl, same, safe⟩

theorem Simulates.dispose (simulates : Simulates (store, pool) table) :
    Simulates (store.dispose pool) [] := by
  obtain ⟨sheet, slots, settled, -, -⟩ := simulates
  exact ⟨_, _, settled.toShows.dispose, Sheet.holds_blank _, .nil⟩

/-- Every operation answers what it answers on the table, and does the same to both. -/
theorem Simulates.perform (simulates : Simulates (store, pool) table) (action : Action) :
    (store.perform pool action).1 = (table.perform action).1 ∧
      Simulates (store.perform pool action).2 (table.perform action).2 ∧
      store.check pool action = .ok () := by
  cases action with
  | addRegion =>
    unfold RegionStore.perform Table.perform check
    by_cases full : maxWord < table.length + 1
    · -- The refusal names the count, which is the same on both sides.
      have count : store.regionCount = table.length := by
        obtain ⟨sheet, slots, settled, -, fills⟩ := simulates
        exact settled.toShows.fields.1.trans fills.length_eq.symm
      rw [← count] at full
      obtain ⟨refused, safe⟩ := addRegion_full pool full
      rw [count] at full
      simp only [refused, if_pos full]
      exact ⟨trivial, simulates, safe⟩
    · obtain ⟨next, done, after, safe⟩ := simulates.addRegion (Nat.le_of_not_lt full)
      simp only [done, if_neg full]
      exact ⟨trivial, after, safe⟩
  | append id run =>
    obtain ⟨agree, safe⟩ := simulates.appendItems id run 0
    obtain ⟨same, after⟩ := simulates.answer agree
    exact ⟨same, after, safe⟩
  | @appendValue τ _ id value =>
    obtain ⟨agree, safe⟩ := simulates.appendItems id (Layout.bytes .little value) 1
    have agree : Agree (store.appendValue id value pool) (do
        Layout.checkOrder τ .big
        table.append id (Layout.bytes .little value) 1) := by
      unfold appendValue
      -- A value too wide for the byte order is refused before the region is looked for.
      cases Layout.checkOrder τ .big with
      | error refusal => exact rfl
      | ok => exact agree
    obtain ⟨same, after⟩ := simulates.answer agree
    refine ⟨same, after, ?_⟩
    show (if Layout.width τ ≤ maxSwapWidth then _ else _) = _
    split
    · exact safe
    · rfl
  | setSpan id index value => exact simulates.setSpan id index value
  | clear id =>
    obtain ⟨agree, safe⟩ := simulates.clear id
    obtain ⟨same, after⟩ := simulates.answer agree
    exact ⟨same, after, safe⟩
  | dispose => exact ⟨rfl, simulates.dispose, rfl⟩

/-! ## Runs of operations -/

/-- The answers of operations one after the other, and the store after them. -/
def run (store : RegionStore) (pool : Pool UInt8) :
    List Action → List (Reply UInt8) × RegionStore × Pool UInt8
  | [] => ([], store, pool)
  | action :: rest =>
    let (reply, next) := store.perform pool action
    let (replies, last) := next.1.run next.2 rest
    (reply :: replies, last)

def checkRun (store : RegionStore) (pool : Pool UInt8) : List Action → Except Overrun Unit
  | [] => .ok ()
  | action :: rest => do
    store.check pool action
    (store.perform pool action).2.1.checkRun (store.perform pool action).2.2 rest

end RegionStore

/-- The answers of operations one after the other, and the table after them. -/
def Regions.Table.run (table : Table) : List RegionStore.Action → List (Reply UInt8) × Table
  | [] => ([], table)
  | action :: rest =>
    let (reply, next) := table.perform action
    let (replies, last) := next.run rest
    (reply :: replies, last)

namespace RegionStore

theorem Simulates.run (actions : List Action) :
    ∀ {store : RegionStore} {pool : Pool UInt8} {table : Table}, Simulates (store, pool) table →
      (store.run pool actions).1 = (table.run actions).1 ∧
        Simulates (store.run pool actions).2 (table.run actions).2 ∧
        store.checkRun pool actions = .ok () := by
  -- Store, pool and table are those of the moment, so that the induction is over all of them.
  induction actions with
  | nil =>
    intro store pool table simulates
    exact ⟨rfl, simulates, rfl⟩
  | cons action rest ih =>
    intro store pool table simulates
    obtain ⟨reply, after, safe⟩ := simulates.perform action
    obtain ⟨replies, last, safe'⟩ := ih after
    refine ⟨?_, last, ?_⟩
    · exact congr (congrArg List.cons reply) replies
    · rw [checkRun, check_bind safe]
      exact safe'

/-- What the store reads back of a region is what the table has of it. -/
theorem Simulates.reads (simulates : Simulates (store, pool) table) (id : Nat) :
    store.span id = (table.read id).map (·.content) ∧
      store.spanLength id = (table.read id).map (·.content.size) ∧
      store.itemCount id = (table.read id).map (min ·.items maxWord) ∧
      store.checkSpan id = .ok () := by
  obtain ⟨sheet, slots, settled, holds, fills⟩ := simulates
  have shows := settled.toShows
  rcases lookup_cases fills id with ⟨unknown, read⟩ | ⟨known, closed, -, read⟩ |
    ⟨k, slot, region, found, rfl, -, read, content, items, -⟩
  · rw [read]
    exact shows.reads_unknown unknown
  · rw [read]
    exact shows.reads_closed holds known closed
  · rw [read]
    have reads := shows.reads_open holds (List.mem_of_getElem? found)
    rw [← content, ← items] at reads
    exact reads

end RegionStore

/-! ## Regions do not see each other -/

namespace Regions.Table

open RegionStore (Action maxWord)

variable {table next : Table} {id : Nat}

theorem eq_set_of_append {run : Array UInt8} {items : Nat}
    (h : table.append id run items = .ok next) : ∃ new, next = table.set id new := by
  unfold Table.append at h
  by_cases long : maxWord < run.size
  · rw [if_pos long] at h
    cases h
  by_cases full : maxWord < table.total + run.size
  · rw [if_neg long, if_pos full] at h
    cases h
  rw [if_neg long, if_neg full] at h
  cases read : table.read id with
  | error refusal =>
    rw [read] at h
    cases h
  | ok region =>
    rw [read] at h
    simp only [bind, Except.bind, pure, Except.pure] at h
    split at h
    · cases h
    · exact ⟨_, (Except.ok.inj h).symm⟩

theorem eq_set_of_store {index : Nat} {value : UInt8}
    (h : table.store id index value = .ok (some next)) : ∃ new, next = table.set id new := by
  cases read : table.read id with
  | error refusal =>
    unfold Table.store at h
    rw [read] at h
    cases h
  | ok region =>
    rw [RegionStore.store_of_read read] at h
    split at h
    · exact ⟨_, (Option.some.inj (Except.ok.inj h)).symm⟩
    · cases h

theorem eq_set_of_clear (h : table.clear id = .ok next) : ∃ new, next = table.set id new := by
  unfold Table.clear at h
  cases read : table.read id with
  | error refusal =>
    rw [read] at h
    cases h
  | ok region =>
    rw [read] at h
    exact ⟨_, (Except.ok.inj h).symm⟩

/-- Where a result exchanges one region at most, the others stay. -/
theorem getElem?_answer {result : Except Error Table} {other : Nat} (different : id ≠ other)
    (set : ∀ {next}, result = .ok next → ∃ new, next = table.set id new) :
    (answer table result).2[other]? = table[other]? := by
  cases result with
  | error refusal => rfl
  | ok next =>
    obtain ⟨new, rfl⟩ := set rfl
    exact List.getElem?_set_ne different

theorem getElem?_perform {action : Action} {other : Nat} (spares : action.spares other)
    (known : other < table.length) : (table.perform action).2[other]? = table[other]? := by
  cases action with
  | addRegion =>
    rw [Table.perform]
    split
    · rfl
    · exact List.getElem?_append_left known
  | append id run => exact getElem?_answer spares eq_set_of_append
  | @appendValue τ _ id value =>
    refine getElem?_answer spares fun {next} h => ?_
    cases order : Layout.checkOrder τ .big with
    | error refusal =>
      rw [order] at h
      cases h
    | ok =>
      rw [order] at h
      exact eq_set_of_append h
  | setSpan id index value =>
    rw [Table.perform]
    cases stored : table.store id index value with
    | error refusal => rfl
    | ok next =>
      cases next with
      -- An index outside the region's bytes changes nothing.
      | none => rfl
      | some next =>
        obtain ⟨new, rfl⟩ := eq_set_of_store stored
        exact List.getElem?_set_ne spares
  | clear id => exact getElem?_answer spares eq_set_of_clear
  | dispose => cases spares

end Regions.Table

/-! ## Every start -/

namespace RegionStore

/-- Where a store starts. -/
inductive Start where
  /-- On memory that the caller lends, whatever it holds. -/
  | memory (cells : Array UInt8)
  | rented (length : Nat)

namespace Start

def make (start : Start) (pool : Pool UInt8) : RegionStore × Pool UInt8 :=
  match start with
  | memory cells => (onMemory cells, pool)
  | rented length => withCapacity pool length

theorem simulates (start : Start) {pool : Pool UInt8} (sound : pool.Sound) :
    Simulates (start.make pool) [] := by
  cases start with
  | memory cells =>
    exact ⟨_, _, settled_onMemory cells sound, Sheet.holds_blank _, .nil⟩
  | rented length =>
    exact ⟨_, _, settled_withCapacity length sound, Sheet.holds_blank _, .nil⟩

end Start

end RegionStore

end PooledBuffers
