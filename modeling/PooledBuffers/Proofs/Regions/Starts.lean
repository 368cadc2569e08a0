import PooledBuffers.Proofs.Regions.Refinement

/-!
# Where a store starts is not seen

Two stores on blank memory, lent or rented and of any lengths, grow at different moments, in the
middle of different moves. But what is in use of their memory is the same stretch of the same tape
at any moment, the cells of the two areas in front that hold nothing included.

* `RegionStore.Leads` — what an operation does to a sheet, whatever store shows it;
* `RegionStore.exists_leads` — every operation does the same to all stores of a sheet;
* `RegionStore.Twins` — stores of one sheet that do what one table does;
* `Twins.perform`, `Twins.runAmid` — one operation, and any number of them;
* `RegionStore.blank_starts_agree` — from all blank starts, after every run of operations.
-/

namespace PooledBuffers.RegionStore

open Regions

variable {store : RegionStore} {pool other : Pool UInt8} {sheet : Sheet} {slots : List Slot}

/-! ## One operation on a sheet -/

/-- An operation leads from all stores that show a sheet to stores that show another. -/
def Leads (action : Action) (sheet next : Sheet) : Prop :=
  ∀ {store : RegionStore} {pool : Pool UInt8}, Settled (store, pool) sheet →
    Settled (store.perform pool action).2 next

/-- A region is unknown, or it is closed, or it has a slot. -/
theorem slot_cases (slots : List Slot) (regionCount id : Nat) :
    regionCount ≤ id ∨ (id < regionCount ∧ ∀ slot ∈ slots, slot.id ≠ id) ∨
      ∃ (k : Nat) (slot : Slot), slots[k]? = some slot ∧ slot.id = id := by
  by_cases opened : ∃ slot ∈ slots, slot.id = id
  · obtain ⟨slot, mem, same⟩ := opened
    obtain ⟨k, found⟩ := List.mem_iff_getElem?.1 mem
    exact .inr (.inr ⟨k, slot, found, same⟩)
  · have closed : ∀ slot ∈ slots, slot.id ≠ id := fun slot mem same => opened ⟨slot, mem, same⟩
    rcases Nat.lt_or_ge id regionCount with known | unknown
    · exact .inr (.inl ⟨known, closed⟩)
    · exact .inl unknown

section Outcomes

variable {next : Sheet} {result : Except Error (RegionStore × Pool UInt8)}

theorem Settled.of_refused {refusal : Error} (settled : Settled (store, pool) sheet)
    (refused : result = .error refusal) : Settled (answer (store, pool) result).2 sheet := by
  rw [refused]
  exact settled

theorem Settled.of_done {after : RegionStore × Pool UInt8} (settled : Settled after next)
    (done : result = .ok after) : Settled (answer (store, pool) result).2 next := by
  rw [done]
  exact settled

end Outcomes

/-- Where bytes go, and whether they are refused, is seen in the sheet. -/
theorem exists_settled_appendItems (holds : sheet.Holds slots) (id : Nat) (run : Array UInt8)
    (items : Nat) :
    ∃ next, ∀ {store : RegionStore} {pool : Pool UInt8}, Settled (store, pool) sheet →
      Settled (answer (store, pool) (store.appendItems id run items pool)).2 next := by
  by_cases long : maxWord < run.size
  · exact ⟨sheet, fun {store pool} settled =>
      settled.of_refused (Shows.appendItems_long store pool id items long).1⟩
  by_cases full : maxWord < sheet.dataLength + run.size
  · exact ⟨sheet, fun settled => settled.of_refused
      (settled.toShows.appendItems_full id items (by omega) full holds.sized).1⟩
  have small : sheet.dataLength + run.size ≤ maxWord := by omega
  rcases slot_cases slots sheet.regionCount id with unknown | ⟨known, closed⟩ |
    ⟨k, slot, found, rfl⟩
  · exact ⟨sheet, fun settled => settled.of_refused
      (settled.toShows.appendItems_unknown small unknown items).1⟩
  · by_cases last : maxWord < sheet.headerLength
    · exact ⟨sheet, fun settled => settled.of_refused
        (settled.toShows.appendItems_headers small holds known closed last items).1⟩
    · refine ⟨(sheet.openRegion id).insert (.ofNat (slots.length * 12))
        (Slot.mk id sheet.dataLength #[] 0).header run items, fun settled => ?_⟩
      obtain ⟨next, done, after, -⟩ :=
        settled.toShows.appendItems_closed small holds known closed (Nat.le_of_not_lt last) items
      exact after.of_done done
  · refine ⟨sheet.insert (.ofNat (k * 12)) slot.header run items, fun settled => ?_⟩
    obtain ⟨next, done, after, -⟩ := settled.toShows.appendItems_open small holds found items
    exact after.of_done done

theorem exists_leads_addRegion (holds : sheet.Holds slots) :
    ∃ next, Leads .addRegion sheet next := by
  by_cases full : maxWord < sheet.regionCount + 1
  · refine ⟨sheet, fun {store pool} settled => ?_⟩
    have regions := settled.toShows.fields.1
    unfold RegionStore.perform
    simp only [(addRegion_full pool (regions ▸ full)).1]
    exact settled
  · refine ⟨sheet.addRegion, fun settled => ?_⟩
    obtain ⟨next, done, after, -⟩ := settled.toShows.addRegion holds (Nat.le_of_not_lt full)
    unfold RegionStore.perform
    simp only [done]
    exact after

theorem exists_leads_setSpan (holds : sheet.Holds slots) (id index : Nat) (value : UInt8) :
    ∃ next, Leads (.setSpan id index value) sheet next := by
  rcases slot_cases slots sheet.regionCount id with unknown | ⟨known, closed⟩ |
    ⟨k, slot, found, rfl⟩
  · refine ⟨sheet, fun settled => ?_⟩
    unfold RegionStore.perform
    simp only [settled.toShows.setSpan_unknown unknown]
    exact settled
  · refine ⟨sheet, fun settled => ?_⟩
    unfold RegionStore.perform
    simp only [settled.toShows.setSpan_closed holds known closed]
    exact settled
  · have mem := List.mem_of_getElem? found
    by_cases inside : index < slot.content.size
    · refine ⟨sheet.storeByte (slot.offset + index) value, fun settled => ?_⟩
      obtain ⟨next, done, after⟩ := settled.setSpan_inside holds mem inside value
      unfold RegionStore.perform
      simp only [done]
      exact after
    · refine ⟨sheet, fun settled => ?_⟩
      unfold RegionStore.perform
      simp only [settled.toShows.setSpan_outside holds mem (Nat.le_of_not_lt inside) value]
      exact settled

theorem exists_settled_clear (holds : sheet.Holds slots) (id : Nat) :
    ∃ next, ∀ {store : RegionStore} {pool : Pool UInt8}, Settled (store, pool) sheet →
      Settled (answer (store, pool) (store.clear id pool)).2 next := by
  rcases slot_cases slots sheet.regionCount id with unknown | ⟨known, closed⟩ |
    ⟨k, slot, found, rfl⟩
  · exact ⟨sheet, fun settled =>
      settled.of_refused (settled.toShows.clear_unknown unknown).1⟩
  · exact ⟨sheet, fun settled =>
      settled.of_done (settled.toShows.clear_closed holds known closed).1⟩
  · refine ⟨sheet.remove slot.id (.ofNat (k * 12)) slot.header, fun settled => ?_⟩
    obtain ⟨next, done, after, -⟩ := settled.toShows.clear_open holds found
    exact after.of_done done

theorem exists_settled_appendValue (holds : sheet.Holds slots) {τ : Type} [Layout τ] (id : Nat)
    (value : τ) :
    ∃ next, ∀ {store : RegionStore} {pool : Pool UInt8}, Settled (store, pool) sheet →
      Settled (answer (store, pool) (store.appendValue id value pool)).2 next := by
  unfold appendValue
  cases Layout.checkOrder τ .big with
  | error refusal => exact ⟨sheet, fun settled => settled⟩
  | ok => exact exists_settled_appendItems holds id (Layout.bytes .little value) 1

/-- All stores that show a sheet are led to one other by an operation. -/
theorem exists_leads (holds : sheet.Holds slots) (action : Action) :
    ∃ next, Leads action sheet next := by
  cases action with
  | addRegion => exact exists_leads_addRegion holds
  | append id run => exact exists_settled_appendItems holds id run 0
  | appendValue id value => exact exists_settled_appendValue holds id value
  | setSpan id index value => exact exists_leads_setSpan holds id index value
  | clear id => exact exists_settled_clear holds id
  | dispose => exact ⟨.blank Tape.empty, fun settled => settled.toShows.dispose⟩

/-! ## Two stores of one sheet -/

/-- The pool may be any other by the next operation. -/
theorem Simulates.amid {table : Table} (simulates : Simulates (store, pool) table)
    (sound : other.Sound) : Simulates (store, other) table := by
  obtain ⟨sheet, slots, settled, holds, fills⟩ := simulates
  exact ⟨sheet, slots, { settled with sound := sound }, holds, fills⟩

/-- Stores that show one sheet and do what one table does. -/
structure Twins (first second : RegionStore × Pool UInt8) (table : Table) : Prop where
  sheet_eq : first.1.sheet = second.1.sheet
  left : Simulates first table
  right : Simulates second table

namespace Twins

variable {first second : RegionStore} {table : Table}

/-- What is in use of their memory is the same, wherever it is. -/
theorem bytes_eq (twins : Twins (first, pool) (second, other) table) :
    first.bytes = second.bytes := by
  have stretch_eq {store : RegionStore} {pool : Pool UInt8}
      (simulates : Simulates (store, pool) table) :
      store.bytes = store.sheet.tape.stretch 0 store.sheet.usedEnd := by
    obtain ⟨sheet, slots, settled, -⟩ := simulates
    obtain rfl := settled.sheet_eq
    have position : store.writer.position = store.sheet.usedEnd := settled.position_eq
    rw [← position]
    exact settled.toShows.writer.written_eq (Nat.le_of_eq position)
  rw [stretch_eq twins.left, stretch_eq twins.right, twins.sheet_eq]

theorem perform (twins : Twins (first, pool) (second, other) table) (action : Action) :
    (first.perform pool action).1 = (second.perform other action).1 ∧
      Twins (first.perform pool action).2 (second.perform other action).2
        (table.perform action).2 := by
  obtain ⟨same, after, -⟩ := twins.left.perform action
  obtain ⟨same', after', -⟩ := twins.right.perform action
  obtain ⟨sheet, slots, settled, holds, -⟩ := twins.left
  obtain ⟨sheet', slots', settled', -⟩ := twins.right
  obtain rfl : sheet = sheet' := settled.sheet_eq.symm.trans (twins.sheet_eq.trans settled'.sheet_eq)
  obtain ⟨next, leads⟩ := exists_leads holds action
  refine ⟨same.trans same'.symm, ?_, after, after'⟩
  exact (leads settled).sheet_eq.trans (leads settled').sheet_eq.symm

theorem describe_eq (twins : Twins (first, pool) (second, other) table) :
    describe first = describe second := by
  have same {α : Type} (field : Sheet → α) : field first.sheet = field second.sheet :=
    congrArg field twins.sheet_eq
  have regions : first.regionCount = second.regionCount := same Sheet.regionCount
  have handles : first.handleCapacity = second.handleCapacity := same Sheet.handleCapacity
  have headers : first.headerCapacity = second.headerCapacity := same Sheet.headerCapacity
  have headerLength : first.headerLength = second.headerLength := same Sheet.headerLength
  have data : first.dataLength = second.dataLength := same Sheet.dataLength
  simp only [describe, activeCount, regions, handles, headers, headerLength, data]

/-- What a region reads back is the same. -/
theorem reads_eq (twins : Twins (first, pool) (second, other) table) (id : Nat) :
    first.span id = second.span id ∧ first.spanLength id = second.spanLength id ∧
      first.itemCount id = second.itemCount id ∧
      ∀ (τ : Type) [Layout τ] (index : Nat),
        first.readValue τ id index = second.readValue τ id index := by
  obtain ⟨span, length, items, -⟩ := twins.left.reads id
  obtain ⟨span', length', items', -⟩ := twins.right.reads id
  have same : first.span id = second.span id := span.trans span'.symm
  refine ⟨same, length.trans length'.symm, items.trans items'.symm, fun τ _ index => ?_⟩
  unfold readValue
  rw [same]

end Twins

/-! ## Runs -/

/-- Operations one after the other, each with the pool as others have left it by then: what they
answer with the bytes in use after them, and the store in the end. -/
def runAmid (store : RegionStore) :
    List (Action × Pool UInt8) → List (Reply UInt8 × Array UInt8) × RegionStore
  | [] => ([], store)
  | (action, pool) :: rest =>
    let (reply, next, _) := store.perform pool action
    let (views, last) := next.runAmid rest
    ((reply, next.bytes) :: views, last)

theorem Twins.runAmid (steps : List (Action × Pool UInt8 × Pool UInt8)) :
    ∀ {first second : RegionStore} {pool other : Pool UInt8} {table : Table},
      Twins (first, pool) (second, other) table →
      (∀ step ∈ steps, step.2.1.Sound ∧ step.2.2.Sound) →
      (first.runAmid (steps.map (Prod.map id Prod.fst))).1 =
        (second.runAmid (steps.map (Prod.map id Prod.snd))).1 ∧
      ∃ pool other table,
        Twins ((first.runAmid (steps.map (Prod.map id Prod.fst))).2, pool)
          ((second.runAmid (steps.map (Prod.map id Prod.snd))).2, other) table := by
  induction steps with
  | nil =>
    intro first second pool other table twins _
    exact ⟨rfl, pool, other, table, twins⟩
  | cons step rest ih =>
    intro first second pool other table twins sound
    obtain ⟨action, pool, other⟩ := step
    obtain ⟨⟨here, there⟩, later⟩ := List.forall_mem_cons.1 sound
    have amid : Twins (first, pool) (second, other) table :=
      ⟨twins.sheet_eq, twins.left.amid here, twins.right.amid there⟩
    obtain ⟨reply, after⟩ := amid.perform action
    obtain ⟨views, last⟩ := ih after later
    have both := congr (congrArg List.cons (congr (congrArg Prod.mk reply) after.bytes_eq)) views
    exact ⟨both, last⟩

/-! ## Every blank start -/

/-- Memory without anything on it. What is rented is blanked. -/
def Start.Blank : Start → Prop
  | memory cells => ∀ cell ∈ cells, cell = 0
  | rented _ => True

theorem Start.settled_blank {start : Start} (blank : start.Blank) (sound : pool.Sound) :
    Settled (start.make pool) (.blank Tape.empty) := by
  cases start with
  | memory cells =>
    have nothing : Tape.ofArray cells = Tape.empty := by
      funext i
      rcases Nat.lt_or_ge i cells.size with inside | outside
      · rw [Tape.ofArray_apply inside]
        exact blank _ (Array.getElem_mem inside)
      · exact Tape.ofArray_apply_of_le outside
    rw [← nothing]
    exact settled_onMemory cells sound
  | rented length => exact settled_withCapacity length sound

theorem Twins.start {start start' : Start} (blank : start.Blank) (blank' : start'.Blank)
    (sound : pool.Sound) (sound' : other.Sound) :
    Twins (start.make pool) (start'.make other) [] where
  sheet_eq := (start.settled_blank blank sound).sheet_eq.trans
    (start'.settled_blank blank' sound').sheet_eq.symm
  left := start.simulates sound
  right := start'.simulates sound'

/-- Two stores start on blank memory, lent or rented and of any lengths, and in pools in whatever
state their users left them, at the start and before each operation. Then each operation gets the
same answer from both and leaves the same bytes in use, the cells of the areas in front that hold
nothing included, and the stores read back the same in the end. -/
theorem blank_starts_agree {start start' : Start} (blank : start.Blank) (blank' : start'.Blank)
    {pool pool' : Pool UInt8} (sound : pool.Sound) (sound' : pool'.Sound)
    (steps : List (Action × Pool UInt8 × Pool UInt8))
    (pools : ∀ step ∈ steps, step.2.1.Sound ∧ step.2.2.Sound) :
    let first := (start.make pool).1.runAmid (steps.map (Prod.map id Prod.fst))
    let second := (start'.make pool').1.runAmid (steps.map (Prod.map id Prod.snd))
    first.1 = second.1 ∧ first.2.bytes = second.2.bytes ∧
      describe first.2 = describe second.2 ∧
      ∀ id, first.2.span id = second.2.span id ∧
        first.2.spanLength id = second.2.spanLength id ∧
        first.2.itemCount id = second.2.itemCount id ∧
        ∀ (τ : Type) [Layout τ] (index : Nat),
          first.2.readValue τ id index = second.2.readValue τ id index := by
  intro first second
  obtain ⟨views, last, other, table, twins⟩ :=
    (Twins.start blank blank' sound sound').runAmid steps pools
  exact ⟨views, twins.bytes_eq, twins.describe_eq, twins.reads_eq⟩

/-- Five cells of the caller's, where the areas in front grow into rented memory, and rented memory
without cells: a region is cleared and the one behind it moves down, which leaves a header behind
that is read by nobody. -/
theorem blank_starts_agree_five_cells :
    let actions : List Action :=
      [.addRegion, .append 0 #[1, 2], .addRegion, .appendValue 1 (0x0809 : UInt16), .clear 0,
        .setSpan 1 0 7, .append 2 #[3]]
    let steps := actions.map fun action => (action, Pool.standard, Pool.standard)
    let lent : Start := .memory #[0, 0, 0, 0, 0]
    let first := (lent.make Pool.standard).1.runAmid (steps.map (Prod.map id Prod.fst))
    let second := ((Start.rented 0).make Pool.standard).1.runAmid (steps.map (Prod.map id Prod.snd))
    (Pool.standard : Pool UInt8).Sound ∧ lent.Blank ∧ (Start.rented 0).Blank ∧ first.1 = second.1 ∧
      second.2.bytes = #[255, 255, 255, 255, 0, 0, 0, 0,
        0, 0, 0, 0, 2, 0, 0, 0, 1, 0, 0, 0, 0, 0, 0, 0, 2, 0, 0, 0, 1, 0, 0, 0, 7, 8] := by
  intro actions steps lent
  have sound : (Pool.standard : Pool UInt8).Sound := Pool.reachable_standard.sound
  have blank : lent.Blank := by
    intro cell mem
    simpa using mem
  have pools : ∀ step ∈ steps, step.2.1.Sound ∧ step.2.2.Sound := by
    intro step mem
    obtain ⟨action, -, rfl⟩ := List.mem_map.1 mem
    exact ⟨sound, sound⟩
  obtain ⟨views, bytes, -⟩ :=
    blank_starts_agree blank (show (Start.rented 0).Blank from trivial) sound sound steps pools
  exact ⟨sound, blank, trivial, views, bytes.symm.trans (by decide +kernel)⟩

end PooledBuffers.RegionStore
