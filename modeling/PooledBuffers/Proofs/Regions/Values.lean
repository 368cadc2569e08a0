import PooledBuffers.Proofs.Regions.Refinement

/-!
# Values in a region

A region that takes in values of one type, and nothing else since it was new or cleared, is a row of
them: it counts them and reads each back by its index, whatever happens to other regions in between.

* `Layout.row`, `Layout.ofBytes_row` — values side by side, and the one at an index;
* `RegionStore.Event`, `RegionStore.received` — what happens meanwhile, and the values taken in;
* `Table.HasRow.perform`, `Table.HasRow.run` — one event, and any number of them;
* `RegionStore.values_read_back` — from every start, after every history of the region.
-/

namespace PooledBuffers

/-! ## Rows of values -/

namespace Layout

variable {τ : Type} [Layout τ]

/-- The bytes of values side by side. -/
def row (values : List τ) : Array UInt8 := (values.flatMap encode).toArray

theorem row_concat (values : List τ) (value : τ) :
    row (values ++ [value]) = row values ++ bytes .little value := by
  simp [row, bytes, encodeIn]

variable [LawfulLayout τ]

theorem size_row (values : List τ) : (row values).size = values.length * width τ := by
  unfold row
  rw [List.size_toArray]
  induction values with
  | nil => exact (Nat.zero_mul _).symm
  | cons value rest ih =>
    rw [List.flatMap_cons, List.length_append, ih, LawfulLayout.length_encode, List.length_cons,
      Nat.succ_mul, Nat.add_comm]

/-- The values before an index take as many widths. -/
theorem drop_row (values : List τ) (index : Nat) :
    (values.flatMap encode).drop (index * width τ) = (values.drop index).flatMap encode := by
  induction values generalizing index with
  | nil => simp
  | cons value rest ih =>
    cases index with
    | zero => simp
    | succ index =>
      rw [Nat.succ_mul, Nat.add_comm, ← List.drop_drop, List.flatMap_cons,
        List.drop_left' (LawfulLayout.length_encode value), ih, List.drop_succ_cons]

theorem ofBytes_row {values : List τ} {index : Nat} (inside : index < values.length) :
    ofBytes .little ((row values).extract (index * width τ) (index * width τ + width τ)) =
      values[index] := by
  have own : (row values).extract (index * width τ) (index * width τ + width τ) =
      bytes .little values[index] := by
    unfold row bytes encodeIn
    rw [List.extract_toArray, List.extract_eq_take_drop, drop_row, Nat.add_sub_cancel_left,
      List.drop_eq_getElem_cons inside, List.flatMap_cons,
      List.take_left' (LawfulLayout.length_encode _)]
  rw [own, ofBytes_bytes]

end Layout

open Regions

/-! ## What happens to a region -/

namespace RegionStore

/-- What happens while a region takes in values: a value for it, or an operation elsewhere. -/
inductive Event (τ : Type) : Type 1 where
  | put (value : τ)
  | elsewhere (action : Action)

namespace Event

variable {τ : Type}

def action [Layout τ] (id : Nat) : Event τ → Action
  | put value => .appendValue id value
  | elsewhere action => action

/-- An operation elsewhere is on other regions. -/
def Spares (id : Nat) : Event τ → Prop
  | put _ => True
  | elsewhere action => action.spares id

/-- The value that is in the region after an event with this answer, and was not before. -/
def taken : Event τ → Reply UInt8 → Option τ
  | put value, .done => some value
  | _, _ => none

theorem taken_elsewhere (action : Action) (reply : Reply UInt8) :
    (elsewhere action : Event τ).taken reply = none := by
  cases reply <;> rfl

end Event

/-- The values that a region takes in, in their order. One that is refused is not among them. -/
def received {τ : Type} : List (Event τ) → List (Reply UInt8) → List τ
  | event :: events, reply :: replies => (event.taken reply).toList ++ received events replies
  | _, _ => []

/-- A region is new, or has just been cleared. -/
inductive Opens (id : Nat) : Action → Reply UInt8 → Prop where
  | created : Opens id .addRegion (.count id)
  | cleared : Opens id (.clear id) .done

end RegionStore

/-! ## Tables -/

namespace Regions.Table

open RegionStore (Event Opens received maxWord)

variable {table : Table} {id : Nat} {region : Region} {τ : Type} [Layout τ]

/-- No region has more bytes than all regions together. -/
theorem size_le_total (here : table[id]? = some region) : region.content.size ≤ table.total := by
  have sum := sum_set (·.content.size) .blank here
  have blank : Region.blank.content.size = 0 := rfl
  unfold Table.total
  omega

/-- Bytes are refused, or they go behind those of their region. -/
theorem append_cases (here : table[id]? = some region) (run : Array UInt8) (items : Nat) :
    (∃ refusal, table.append id run items = .error refusal) ∨
      table.append id run items =
        .ok (table.set id ⟨region.content ++ run, region.items + items, true⟩) := by
  by_cases long : maxWord < run.size
  · exact .inl ⟨_, by rw [Table.append, if_pos long]; rfl⟩
  by_cases full : maxWord < table.total + run.size
  · exact .inl ⟨_, by rw [Table.append, if_neg long, if_pos full]; rfl⟩
  have read : table.read id = .ok region := by rw [Table.read, here]
  rw [RegionStore.append_eq (Nat.le_of_not_lt long) (Nat.le_of_not_lt full), read]
  simp only [bind, Except.bind, pure, Except.pure]
  split
  · exact .inl ⟨_, rfl⟩
  · exact .inr rfl

/-- A region is a row of values, and counts them. -/
def HasRow (table : Table) (id : Nat) (values : List τ) : Prop :=
  ∃ region, table[id]? = some region ∧ region.content = Layout.row values ∧
    region.items = values.length

/-- A region that is new or just cleared is an empty row. -/
theorem hasRow_of_opens {action : RegionStore.Action}
    (opens : Opens id action (table.perform action).1) :
    (table.perform action).2.HasRow id ([] : List τ) := by
  have blank {next : Table} (here : next[id]? = some .blank) : next.HasRow id ([] : List τ) :=
    ⟨.blank, here, rfl, rfl⟩
  refine blank ?_
  generalize answered : (table.perform action).1 = reply at opens
  cases opens with
  | created =>
    unfold Table.perform at answered ⊢
    by_cases full : maxWord < table.length + 1
    · simp only [if_pos full] at answered
      cases answered
    · simp only [if_neg full] at answered ⊢
      cases answered
      exact List.getElem?_concat_length
  | cleared =>
    simp only [Table.perform] at answered ⊢
    cases read : table.read id with
    | error refusal =>
      rw [Table.clear, read] at answered
      cases answered
    | ok region =>
      have cleared : table.clear id = .ok (table.set id .blank) := by
        rw [Table.clear, read]
        rfl
      have inside : id < table.length := by
        cases here : table[id]? with
        | none =>
          rw [Table.read, here] at read
          cases read
        | some old => exact (List.getElem?_eq_some_iff.1 here).1
      rw [cleared]
      exact List.getElem?_set_self inside

variable {values : List τ}

/-- What is refused is not in the row; what is not goes behind its values. -/
theorem HasRow.append (row : table.HasRow id values) (value : τ) :
    let answered := answer table (table.append id (Layout.bytes .little value) 1)
    answered.2.HasRow id (values ++ ((Event.put value).taken answered.1).toList) := by
  have ⟨region, here, content, items⟩ := row
  have inside := (List.getElem?_eq_some_iff.1 here).1
  rcases append_cases here (Layout.bytes .little value) 1 with ⟨refusal, refused⟩ | done
  · rw [refused]
    show table.HasRow id (values ++ [])
    rwa [List.append_nil]
  · rw [done]
    refine ⟨_, List.getElem?_set_self inside, ?_, ?_⟩
    · exact (congrArg (· ++ _) content).trans (Layout.row_concat values value).symm
    · show region.items + 1 = (values ++ [value]).length
      rw [items, List.length_append, List.length_singleton]

/-- A value is refused only for want of room. -/
theorem HasRow.appendValue_done [LawfulLayout τ] (row : table.HasRow id values)
    (narrow : Layout.width τ ≤ maxSwapWidth) (bytes_fit : table.total + Layout.width τ ≤ maxWord)
    (headers_fit : table.openCount * headerSize ≤ maxWord) (value : τ) :
    (table.perform (.appendValue id value)).1 = .done := by
  obtain ⟨region, here, -⟩ := row
  have read : table.read id = .ok region := by rw [Table.read, here]
  have size : (Layout.bytes .little value).size = Layout.width τ := Layout.size_bytes .little value
  simp only [Table.perform, Layout.checkOrder_eq_ok .big narrow, bind, Except.bind]
  rw [RegionStore.append_eq (by omega) (size ▸ bytes_fit), read]
  simp only [bind, Except.bind, if_neg (fun both => Nat.not_lt.2 headers_fit both.2 :
    ¬ (region.opened = false ∧ maxWord < table.openCount * headerSize))]
  rfl

/-- One event: a value for the region, or an operation elsewhere. -/
theorem HasRow.perform (row : table.HasRow id values) {event : Event τ} (spares : event.Spares id) :
    let performed := table.perform (event.action id)
    performed.2.HasRow id (values ++ (event.taken performed.1).toList) := by
  cases event with
  | put value =>
    simp only [Event.action, Table.perform]
    cases Layout.checkOrder τ .big with
    | error refusal =>
      show table.HasRow id (values ++ [])
      rwa [List.append_nil]
    | ok => exact row.append value
  | elsewhere action =>
    obtain ⟨region, here, same⟩ := row
    have inside := (List.getElem?_eq_some_iff.1 here).1
    refine ⟨region, (getElem?_perform spares inside).trans here, ?_⟩
    rwa [Event.taken_elsewhere, Option.toList_none, List.append_nil]

theorem HasRow.run {events : List (Event τ)} (spares : ∀ event ∈ events, event.Spares id) :
    ∀ {table : Table} {values : List τ}, table.HasRow id values →
      (table.run (events.map (·.action id))).2.HasRow id
        (values ++ received events (table.run (events.map (·.action id))).1) := by
  induction events with
  | nil =>
    intro table values row
    show table.HasRow id (values ++ [])
    rwa [List.append_nil]
  | cons event rest ih =>
    intro table values row
    obtain ⟨here, later⟩ := List.forall_mem_cons.1 spares
    have last := ih later (row.perform here)
    rw [List.append_assoc] at last
    exact last

end Regions.Table

/-! ## Stores -/

namespace RegionStore

variable {store : RegionStore} {pool : Pool UInt8} {table : Table} {id : Nat}
variable {τ : Type} [Layout τ] [LawfulLayout τ] {values : List τ}

/-- What a store reads back of a region that is a row of values. -/
theorem Simulates.reads_row (simulates : Simulates (store, pool) table)
    (row : table.HasRow id values) (some_bytes : 1 ≤ Layout.width τ) :
    store.itemCount id = .ok values.length ∧
      (∀ index (inside : index < values.length),
        store.readValue τ id index = .ok values[index]) ∧
      ∀ index, values.length ≤ index → store.readValue τ id index =
        .error (.unexpectedEnd .buffer
          (Size.add (Size.mul index (Layout.width τ)) (Layout.width τ))
          (values.length * Layout.width τ)) := by
  obtain ⟨region, here, content, items⟩ := row
  have read : table.read id = .ok region := by rw [Table.read, here]
  obtain ⟨span, -, count, -⟩ := simulates.reads id
  obtain ⟨sheet, slots, -, holds, fills⟩ := simulates
  rw [read] at span count
  replace span : store.span id = .ok (Layout.row values) := span.trans (congrArg Except.ok content)
  replace count : store.itemCount id = .ok (min values.length maxWord) :=
    count.trans (congrArg (Except.ok <| min · maxWord) items)
  have size : (Layout.row values).size = values.length * Layout.width τ := Layout.size_row values
  have small : values.length * Layout.width τ ≤ maxWord := by
    rw [← size, ← content]
    exact Nat.le_trans (Table.size_le_total here) (fills.total_eq ▸ holds.sized.dataLength_le)
  have few : values.length ≤ maxWord := Nat.le_trans (Nat.le_mul_of_pos_right _ some_bytes) small
  have top : maxWord ≤ Size.top := by decide
  refine ⟨?_, fun index inside => ?_, fun index outside => ?_⟩
  · rw [count, Nat.min_eq_left few]
  · -- A value of the row ends within it, so that its place is not too far behind.
    have ends := Nat.mul_le_mul_right (Layout.width τ) inside
    rw [Nat.succ_mul] at ends
    have exact_place : Size.mul index (Layout.width τ) = index * Layout.width τ :=
      Size.mul_eq (by omega)
    rw [readValue, span]
    simp only [bind, Except.bind, exact_place, size, if_pos ends]
    exact congrArg Except.ok (Layout.ofBytes_row inside)
  · -- A place that is too far behind stays behind the row.
    have behind : values.length * Layout.width τ <
        Size.mul index (Layout.width τ) + Layout.width τ := by
      have far := Nat.mul_le_mul_right (Layout.width τ) outside
      unfold Size.mul
      omega
    rw [readValue, span]
    simp only [bind, Except.bind, size, if_neg (Nat.not_le.2 behind)]
    rfl

theorem Simulates.appendValue_done (simulates : Simulates (store, pool) table)
    (row : table.HasRow id values) (narrow : Layout.width τ ≤ maxSwapWidth)
    (bytes_fit : store.dataLength + Layout.width τ ≤ maxWord)
    (headers_fit : store.headerLength ≤ maxWord) (value : τ) :
    (store.perform pool (.appendValue id value)).1 = .done := by
  obtain ⟨reply, -⟩ := simulates.perform (.appendValue id value)
  obtain ⟨sheet, slots, settled, holds, fills⟩ := simulates
  obtain ⟨-, -, -, headers, data⟩ := settled.toShows.fields
  rw [headers, holds.headerLength_eq, ← fills.openCount_eq, ← headerSize_eq] at headers_fit
  rw [data, ← fills.total_eq] at bytes_fit
  exact reply.trans (row.appendValue_done narrow bytes_fit headers_fit value)

/-- A history of a store, one operation after it, and what follows: it answers as its table does. -/
theorem Start.answers_eq_table (start : Start) {pool : Pool UInt8} (reachable : pool.Reachable)
    (before : List Action) (opener : Action) (actions : List Action) :
    let first := start.make pool
    let middle := (first.1.run first.2 before).2
    let opened := middle.1.perform middle.2 opener
    let last := opened.2.1.run opened.2.2 actions
    let expected := (Table.run [] before).2.perform opener
    opened.1 = expected.1 ∧ last.1 = (expected.2.run actions).1 ∧
      Simulates last.2 (expected.2.run actions).2 ∧
      opened.2.1.checkRun opened.2.2 actions = .ok () := by
  intro first middle opened last expected
  obtain ⟨-, simulates, -⟩ := (start.simulates reachable.sound).run before
  obtain ⟨reply, simulates, -⟩ := simulates.perform opener
  exact ⟨reply, simulates.run actions⟩

/-- Values come back by their index: a region that was new or just cleared, and to which nothing but
values of one type was appended since, counts the values that it took in and gives each of them
back, and a read at any other index, be it the largest that there is, finds that the region ends
before. A value is refused only if there is no room for it. It does not matter where the store
started, what happened to it before, and what happened to its other regions meanwhile. -/
theorem values_read_back (some_bytes : 1 ≤ Layout.width τ) (start : Start) {pool : Pool UInt8}
    (reachable : pool.Reachable) (before : List Action) (opener : Action) (id : Nat)
    (events : List (Event τ)) (others : ∀ event ∈ events, event.Spares id) :
    let first := start.make pool
    let middle := (first.1.run first.2 before).2
    let opened := middle.1.perform middle.2 opener
    let last := opened.2.1.run opened.2.2 (events.map (·.action id))
    let values := received events last.1
    Opens id opener opened.1 →
      last.2.1.itemCount id = .ok values.length ∧
      (∀ index (inside : index < values.length),
        last.2.1.readValue τ id index = .ok values[index]) ∧
      (∀ index, values.length ≤ index → last.2.1.readValue τ id index =
        .error (.unexpectedEnd .buffer
          (Size.add (Size.mul index (Layout.width τ)) (Layout.width τ))
          (values.length * Layout.width τ))) ∧
      (∀ value : τ, Layout.width τ ≤ maxSwapWidth →
        last.2.1.dataLength + Layout.width τ ≤ maxWord → last.2.1.headerLength ≤ maxWord →
          (last.2.1.perform last.2.2 (.appendValue id value)).1 = .done) ∧
      opened.2.1.checkRun opened.2.2 (events.map (·.action id)) = .ok () ∧
      last.2.1.checkSpan id = .ok () := by
  intro first middle opened last values opens
  obtain ⟨reply, replies, simulates, safe⟩ :=
    start.answers_eq_table reachable before opener (events.map (·.action id))
  have row := (Table.hasRow_of_opens (reply ▸ opens)).run others
  rw [List.nil_append, ← replies] at row
  obtain ⟨count, inside, outside⟩ := simulates.reads_row row some_bytes
  exact ⟨count, inside, outside, fun value narrow bytes_fit headers_fit =>
    simulates.appendValue_done row narrow bytes_fit headers_fit value, safe,
    (simulates.reads id).2.2.2⟩

/-- A region of the caller's five cells is cleared and takes in two values, while a region behind it
is added, filled and cleared. -/
theorem values_read_back_two_values :
    let before : List Action := [.addRegion, .append 0 #[1, 2, 3]]
    let events : List (Event UInt16) :=
      [.put 0x0102, .elsewhere .addRegion, .elsewhere (.append 1 #[9]), .put 0x0304,
        .elsewhere (.clear 1)]
    let first := (Start.memory #[5, 5, 5, 5, 5]).make Pool.standard
    let middle := (first.1.run first.2 before).2
    let opened := middle.1.perform middle.2 (.clear 0)
    let last := opened.2.1.run opened.2.2 (events.map (·.action 0))
    1 ≤ Layout.width UInt16 ∧ (Pool.standard : Pool UInt8).Reachable ∧
      (∀ event ∈ events, event.Spares 0) ∧ Opens 0 (.clear 0) opened.1 ∧
      last.2.1.itemCount 0 = .ok 2 ∧ last.2.1.readValue UInt16 0 1 = .ok 0x0304 ∧
      last.2.1.readValue UInt16 0 Size.top = .error (.unexpectedEnd .buffer Size.top 4) := by
  intro before events
  have some_bytes : 1 ≤ Layout.width UInt16 := by decide
  have others : ∀ event ∈ events, event.Spares 0 := by simp [events, Event.Spares, Action.spares]
  -- The answers are those of the table, where they can be looked up.
  obtain ⟨reply, replies, -⟩ := Start.answers_eq_table (.memory #[5, 5, 5, 5, 5])
    Pool.reachable_standard before (.clear 0) (events.map (·.action 0))
  have cleared : ((Table.run [] before).2.perform (.clear 0)).1 = .done := rfl
  have values : received events (((Table.run [] before).2.perform (.clear 0)).2.run
      (events.map (·.action 0))).1 = [0x0102, 0x0304] := rfl
  have main := values_read_back some_bytes (.memory #[5, 5, 5, 5, 5]) Pool.reachable_standard before
    (.clear 0) 0 events others
  simp only [reply, cleared, replies, values] at main
  obtain ⟨count, inside, outside, -⟩ := main .cleared
  refine ⟨some_bytes, Pool.reachable_standard, others, ?_, count, inside 1 (by decide), ?_⟩
  · rw [reply]
    exact .cleared
  · exact outside Size.top (by decide)

end RegionStore

end PooledBuffers
