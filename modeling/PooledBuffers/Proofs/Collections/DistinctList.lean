import PooledBuffers.Proofs.Collections.GrowList

/-!
# A list of distinct elements keeps the first of equal ones

What has been added since the list was last emptied says all about it: its elements are those that
equal none kept before them, in the order of their coming. Equality is any relation: nothing is
asked of it, so that an element may well not equal itself.

* `keep`, `keepFirst` — the elements that are kept when one more comes, and of a whole run;
* `distinct_keepFirst` — none of them equals a later one;
* `DistinctList.recorded` — what has been added since the list was last emptied;
* `DistinctList.refines_plain` — one operation; `DistinctList.keeps_first` — all runs of operations.
-/

namespace PooledBuffers

variable {α : Type} [BEq α]

/-! ## The first of equal elements -/

/-- The elements kept when one more comes: it is dropped if a kept one equals it. -/
def keep (kept : List α) (value : α) : List α :=
  if kept.any (· == value) then kept else kept ++ [value]

/-- The elements kept of a run. -/
def keepFirst (run : List α) : List α := run.foldl keep []

theorem keep_of_any {kept : List α} {value : α} (known : kept.any (· == value) = true) :
    keep kept value = kept := if_pos known

theorem keep_of_not_any {kept : List α} {value : α} (new : kept.any (· == value) = false) :
    keep kept value = kept ++ [value] := if_neg (Bool.eq_false_iff.1 new)

theorem length_le_keep (kept : List α) (value : α) : kept.length ≤ (keep kept value).length := by
  unfold keep
  split
  · exact Nat.le_refl _
  · rw [List.length_append]
    exact Nat.le_add_right _ _

theorem keepFirst_append (all run : List α) :
    keepFirst (all ++ run) = run.foldl keep (keepFirst all) :=
  List.foldl_append

/-- Elements of which none equals a later one. -/
def Distinct (kept : List α) : Prop :=
  kept.Pairwise fun earlier later => (earlier == later) = false

theorem Distinct.keep {kept : List α} (distinct : Distinct kept) (value : α) :
    Distinct (keep kept value) := by
  by_cases known : kept.any (· == value) = true
  · rw [keep_of_any known]
    exact distinct
  · have new := Bool.eq_false_iff.2 known
    rw [keep_of_not_any new]
    refine List.pairwise_append.2 ⟨distinct, List.pairwise_singleton _ _, ?_⟩
    intro earlier member later last
    obtain rfl := List.mem_singleton.1 last
    exact Bool.eq_false_iff.2 fun equal => known (List.any_eq_true.2 ⟨earlier, member, equal⟩)

/-- None of the elements kept of a run equals a later one. -/
theorem distinct_keepFirst (run : List α) : Distinct (keepFirst run) := by
  have all (kept : List α) (distinct : Distinct kept) : Distinct (run.foldl keep kept) := by
    induction run generalizing kept with
    | nil => exact distinct
    | cons value rest ih => exact ih (keep kept value) (distinct.keep value)
  exact all [] .nil

namespace DistinctList

variable [Element α]

/-! ## Plain elements -/

omit [Element α] [BEq α] in
/-- What has been added since the list was last emptied: what it is after an operation. -/
def Action.record (all : List α) : Action α → List α
  | .add value => all ++ [value]
  | .addRange run | .addEach run => all ++ run.toList
  | .clear | .dispose => []
  | .contains _ | .containsAny _ | .look _ | .get _ | .read => all

omit [Element α] [BEq α] in
/-- What has been added since the list was last emptied. -/
def recorded (actions : List (Action α)) : List α := actions.foldl Action.record []

omit [Element α] in
/-- The answer of a list that keeps these elements. -/
def Action.answer (kept : List α) : Action α → Reply α
  | .add value => .flag !kept.any (· == value)
  | .addRange run => .count ((run.toList.foldl keep kept).length - kept.length)
  | .addEach _ | .clear | .dispose => .done
  | .contains value => .flag (kept.any (· == value))
  | .containsAny run => .flag (kept.any fun item => run.any (· == item))
  | .look index => .element kept[index]?
  | .get index =>
    .ofIndexed (if h : index < kept.length then .ok kept[index]
      else .error ⟨.cells, index, kept.length⟩)
  | .read => .run kept.toArray

/-- A list with its pool, as it answers operations. -/
def machine : Machine (DistinctList α × Pool α) (Action α) (Reply α) :=
  fun state action => state.1.perform state.2 action

omit [Element α] in
/-- All that was added, answering with the first of equal elements. -/
def plain : Machine (List α) (Action α) (Reply α) :=
  fun all action => (action.answer (keepFirst all), Action.record all action)

omit [Element α] in
/-- After an operation there are no more elements kept than can be counted. -/
def Countable (all : List α) (action : Action α) : Prop :=
  (keepFirst (Action.record all action)).length ≤ Size.top

omit [Element α] in
instance (all : List α) (action : Action α) : Decidable (Countable all action) :=
  inferInstanceAs (Decidable (_ ≤ _))

/-! ## Operations -/

omit [BEq α] [Element α] in
/-- A list with its pool keeps these elements. -/
def Keeps (state : DistinctList α × Pool α) (kept : List α) : Prop :=
  GrowList.Represents (state.1.list, state.2) kept

variable {distinct : DistinctList α} {pool : Pool α} {kept : List α}

theorem Keeps.add (keeps : Keeps (distinct, pool) kept) (value : α)
    (short : (keep kept value).length ≤ Size.top) :
    (distinct.add value pool).1 = !kept.any (· == value) ∧
      Keeps (distinct.add value pool).2 (keep kept value) := by
  have known : distinct.contains value = kept.any (· == value) := keeps.contains_eq value
  unfold DistinctList.add
  rw [known]
  cases answer : kept.any (· == value) with
  | true =>
    rw [keep_of_any answer]
    exact ⟨rfl, keeps⟩
  | false =>
    rw [keep_of_not_any answer] at short ⊢
    exact ⟨rfl, GrowList.Represents.add keeps value short⟩

/-- As many are counted as there are more elements afterwards. -/
theorem Keeps.addRange (keeps : Keeps (distinct, pool) kept) (run : Array α)
    (short : (run.toList.foldl keep kept).length ≤ Size.top) :
    (distinct.addRange run pool).1 + kept.length = (run.toList.foldl keep kept).length ∧
      Keeps (distinct.addRange run pool).2 (run.toList.foldl keep kept) := by
  rw [DistinctList.addRange, ← Array.foldl_toList]
  refine Machine.foldl_related
    (fun (state : Nat × DistinctList α × Pool α) items =>
      state.1 + kept.length = items.length ∧ Keeps state.2 items)
    length_le_keep (fun {state items} value held short => ?_) run.toList
    ⟨Nat.zero_add _, keeps⟩ short
  obtain ⟨count, distinct, pool⟩ := state
  obtain ⟨counted, keeps⟩ := held
  obtain ⟨answer, added⟩ := keeps.add value short
  refine ⟨?_, added⟩
  show (if (distinct.add value pool).1 then count + 1 else count) + kept.length = _
  rw [answer]
  cases known : items.any (· == value) with
  | true =>
    rw [keep_of_any known]
    exact counted
  | false =>
    rw [keep_of_not_any known, List.length_append, List.length_singleton, ← counted]
    exact Nat.add_right_comm _ _ _

variable {all : List α}

theorem Keeps.perform (keeps : Keeps (distinct, pool) (keepFirst all)) (action : Action α)
    (countable : Countable all action) :
    (distinct.perform pool action).1 = action.answer (keepFirst all) ∧
      Keeps (distinct.perform pool action).2 (keepFirst (Action.record all action)) := by
  have views := GrowList.Represents.views keeps
  cases action with
  | add value =>
    have short : (keepFirst (all ++ [value])).length ≤ Size.top := countable
    have after : keepFirst (all ++ [value]) = keep (keepFirst all) value := keepFirst_append _ _
    obtain ⟨answer, added⟩ := keeps.add value (after ▸ short)
    rw [Action.record, after]
    exact ⟨congrArg Reply.flag answer, added⟩
  | addRange run =>
    have short : (keepFirst (all ++ run.toList)).length ≤ Size.top := countable
    rw [keepFirst_append] at short
    obtain ⟨count, added⟩ := keeps.addRange run short
    rw [Action.record, keepFirst_append]
    exact ⟨congrArg Reply.count (Nat.eq_sub_of_add_eq count), added⟩
  | addEach run =>
    have short : (keepFirst (all ++ run.toList)).length ≤ Size.top := countable
    rw [keepFirst_append] at short
    rw [Action.record, keepFirst_append]
    exact ⟨rfl, (keeps.addRange run short).2⟩
  | contains value => exact ⟨congrArg Reply.flag (keeps.contains_eq value), keeps⟩
  | containsAny run =>
    refine ⟨congrArg Reply.flag ?_, keeps⟩
    rw [containsAny, ← Array.any_toList]
    exact congrArg (List.any · _) views.toArray_eq
  | look index => exact ⟨congrArg Reply.element (views.get?_eq index), keeps⟩
  | get index => exact ⟨congrArg Reply.ofIndexed (views.get_eq index), keeps⟩
  | clear => exact ⟨rfl, GrowList.Represents.clear keeps⟩
  | dispose => exact ⟨rfl, GrowList.Represents.dispose keeps⟩
  | read =>
    refine ⟨congrArg Reply.run ?_, keeps⟩
    exact congrArg List.toArray views.toArray_eq

omit [Element α] in
theorem Keeps.containsAny_iff (keeps : Keeps (distinct, pool) kept) (run : Array α) :
    distinct.containsAny run = true ↔
      ∃ item ∈ kept, ∃ value ∈ run.toList, (value == item) = true := by
  have shown : distinct.toArray.toList = kept := keeps.toArray_eq
  rw [containsAny, ← Array.any_toList, shown, List.any_eq_true]
  simp only [← Array.any_toList, List.any_eq_true]

theorem Keeps.count_addRange (keeps : Keeps (distinct, pool) kept) (run : Array α)
    (short : (run.toList.foldl keep kept).length ≤ Size.top) :
    (distinct.addRange run pool).1 + distinct.length =
      (distinct.addRange run pool).2.1.length := by
  obtain ⟨counted, longer⟩ := keeps.addRange run short
  have before : distinct.length = kept.length := keeps.length_eq
  have after : (distinct.addRange run pool).2.1.length = _ := longer.length_eq
  rw [before, after]
  exact counted

/-- A value is told to be added where it is, and not where it is not. -/
theorem Keeps.add_iff (keeps : Keeps (distinct, pool) kept) (value : α)
    (room : kept.length < Size.top) :
    ((distinct.add value pool).1 = true ↔
        (distinct.add value pool).2.1.toArray.toList = kept ++ [value]) ∧
      ((distinct.add value pool).1 = false ↔
        (distinct.add value pool).2.1.toArray.toList = kept) := by
  have longer : kept ++ [value] ≠ kept := by
    intro same
    have lengths := congrArg List.length same
    rw [List.length_append, List.length_singleton] at lengths
    omega
  cases known : kept.any (· == value) with
  | true =>
    have short : (keep kept value).length ≤ Size.top := by
      rw [keep_of_any known]
      exact Nat.le_of_lt room
    obtain ⟨answer, same⟩ := keeps.add value short
    have shown : (distinct.add value pool).2.1.toArray.toList = _ := same.toArray_eq
    rw [answer, shown, keep_of_any known, known]
    exact ⟨⟨nofun, fun same => absurd same.symm longer⟩, fun _ => rfl, fun _ => rfl⟩
  | false =>
    have short : (keep kept value).length ≤ Size.top := by
      rw [keep_of_not_any known, List.length_append]
      exact room
    obtain ⟨answer, added⟩ := keeps.add value short
    have shown : (distinct.add value pool).2.1.toArray.toList = _ := added.toArray_eq
    rw [answer, shown, keep_of_not_any known, known]
    exact ⟨⟨fun _ => rfl, fun _ => rfl⟩, nofun, fun same => absurd same longer⟩

/-! ## Checks -/

/-- The elements are looked through, and a new one is added. -/
def checkAdd (distinct : DistinctList α) (value : α) (pool : Pool α) : Except Overrun Unit := do
  distinct.list.checkView
  if !distinct.contains value then distinct.list.checkAdd value pool

/-- Checks the bounds that an operation relies on. -/
def check (distinct : DistinctList α) (pool : Pool α) : Action α → Except Overrun Unit
  | .add value => distinct.checkAdd value pool
  | .addRange run | .addEach run =>
    Machine.checkEach (fun state value => state.1.checkAdd value state.2)
      (fun state value => (state.1.add value state.2).2) (distinct, pool) run.toList
  | .dispose => pool.checkReturn distinct.list.block.lease
  | .contains _ | .containsAny _ | .look _ | .get _ | .clear | .read => distinct.list.checkView

theorem Keeps.checkAdd_eq_ok (keeps : Keeps (distinct, pool) kept) (value : α)
    (short : (keep kept value).length ≤ Size.top) : distinct.checkAdd value pool = .ok () := by
  have known : distinct.contains value = kept.any (· == value) := keeps.contains_eq value
  rw [checkAdd, check_bind keeps.checkView_eq_ok, known]
  cases answer : kept.any (· == value) with
  | true => rfl
  | false =>
    rw [keep_of_not_any answer] at short
    exact GrowList.Represents.checkAdd_eq_ok keeps value short

theorem Keeps.check_eq_ok (keeps : Keeps (distinct, pool) (keepFirst all)) (action : Action α)
    (countable : Countable all action) : distinct.check pool action = .ok () := by
  cases action with
  | add value =>
    have short : (keepFirst (all ++ [value])).length ≤ Size.top := countable
    rw [keepFirst_append] at short
    exact keeps.checkAdd_eq_ok value short
  | addRange run | addEach run =>
    have short : (keepFirst (all ++ run.toList)).length ≤ Size.top := countable
    rw [keepFirst_append] at short
    refine Machine.checkEach_eq_ok Keeps length_le_keep
      (fun value held short => ⟨?_, (held.add value short).2⟩) run.toList keeps short
    exact held.checkAdd_eq_ok value short
  | dispose => exact keeps.backs.checkReturn_eq_ok
  | contains _ | containsAny _ | look _ | get _ | clear | read => exact keeps.checkView_eq_ok

/-! ## Runs -/

/-- A list of distinct elements does as its history says, one operation after another. -/
theorem refines_plain : Machine.Refines (@machine α _ _) plain
    (fun state all => Keeps state (keepFirst all)) Countable where
  answer keeps countable := (keeps.perform _ countable).1
  next keeps countable := (keeps.perform _ countable).2

omit [Element α] in
theorem play_plain (actions : List (Action α)) : (plain.play [] actions).2 = recorded actions :=
  Machine.play_state plain actions []

/-- A list of distinct elements keeps the first of equal ones: with room for however many to begin
with, whatever equality is and as long as the elements kept can be counted, every run of operations
is answered from what has been added since the list was last emptied, and leaves the elements of
that which equal none kept before them. So none of them equals a later one. A value is added if and
only if the answer says so; a run makes the list longer by as many as are counted; a value is found
if and only if an element equals it, and one of a run if and only if it equals an element. Where
equality is symmetric, both may be said the other way round. No operation of the run reaches
outside. -/
theorem keeps_first (pool : Pool α) (reachable : pool.Reachable)
    (small : pool.config.maxArrayLength ≤ Size.top) (capacity : Nat) (actions : List (Action α))
    (countable : plain.Along Countable [] actions) :
    let first := withCapacity pool capacity
    let last := first.1.run first.2 actions
    let kept := keepFirst (recorded actions)
    (machine.play first actions).1 = (plain.play [] actions).1 ∧
    (last.1.toArray.toList = kept ∧ last.1.length = kept.length) ∧
    Distinct kept ∧
    (∀ value, last.1.length < Size.top →
      let after := last.1.add value last.2
      (after.1 = true ↔ after.2.1.toArray.toList = kept ++ [value]) ∧
        (after.1 = false ↔ after.2.1.toArray.toList = kept)) ∧
    (∀ run : Array α, (keepFirst (recorded actions ++ run.toList)).length ≤ Size.top →
      let after := last.1.addRange run last.2
      after.1 + last.1.length = after.2.1.length) ∧
    (∀ value, last.1.contains value = true ↔ ∃ item ∈ kept, (item == value) = true) ∧
    (∀ run : Array α, last.1.containsAny run = true ↔
      ∃ item ∈ kept, ∃ value ∈ run.toList, (value == item) = true) ∧
    ((∀ a b : α, (a == b) = (b == a)) →
      kept.Pairwise (fun earlier later => (later == earlier) = false) ∧
      ∀ run : Array α, last.1.containsAny run = true ↔
        ∃ item ∈ kept, ∃ value ∈ run.toList, (item == value) = true) ∧
    machine.Along (fun state action => state.1.check state.2 action = .ok ()) first actions := by
  intro first last kept
  have backs : pool.Backs none := ⟨reachable.sound, small, nofun, nofun⟩
  have begins : Keeps first (keepFirst []) := GrowList.Represents.withCapacity backs capacity
  obtain ⟨answers, ends⟩ := refines_plain.play actions begins countable
  have keeps : Keeps last kept := by
    rw [play_plain, Machine.play_state] at ends
    exact ends
  have views := GrowList.Represents.views keeps
  have found : ∀ run : Array α, last.1.containsAny run = true ↔
      ∃ item ∈ kept, ∃ value ∈ run.toList, (value == item) = true := keeps.containsAny_iff
  refine ⟨answers, ⟨views.toArray_eq, views.length_eq⟩, distinct_keepFirst _, ?_, ?_,
    views.contains_iff, found, ?_, ?_⟩
  · exact fun value room => keeps.add_iff value (views.length_eq ▸ room)
  · intro run short
    rw [keepFirst_append] at short
    exact keeps.count_addRange run short
  · intro symmetric
    refine ⟨(distinct_keepFirst _).imp fun apart => (symmetric _ _).trans apart, ?_⟩
    intro run
    rw [found]
    simp only [symmetric]
  · exact refines_plain.along (fun held counted => held.check_eq_ok _ counted) actions begins
      countable

/-- Numbers of which one does not equal itself and two are equal though not the same, on a list that
was cleared and gave its memory back before. -/
theorem keeps_first_of_numbers :
    let pool : Pool Binary64 := .standard
    let nan : Binary64 := ⟨0x7FF8000000000000⟩
    let zero : Binary64 := ⟨0⟩
    let negativeZero : Binary64 := ⟨0x8000000000000000⟩
    let actions : List (Action Binary64) := [.add ⟨1⟩, .clear, .addRange #[⟨2⟩, ⟨2⟩], .dispose,
      .addRange #[nan, zero, negativeZero, nan, ⟨1⟩], .add zero, .contains nan]
    pool.Reachable ∧ pool.config.maxArrayLength ≤ Size.top ∧ plain.Along Countable [] actions ∧
      ((withCapacity pool 1).1.run (withCapacity pool 1).2 actions).1.toArray.toList =
        [nan, zero, nan, ⟨1⟩] := by
  intro pool nan zero negativeZero actions
  have small : pool.config.maxArrayLength ≤ Size.top := by decide
  have countable : plain.Along Countable [] actions := by decide
  have kept : keepFirst (recorded actions) = [nan, zero, nan, ⟨1⟩] := by decide
  obtain ⟨-, ⟨elements, -⟩, -⟩ :=
    keeps_first pool Pool.reachable_standard small 1 actions countable
  exact ⟨Pool.reachable_standard, small, countable, elements.trans kept⟩

end DistinctList

end PooledBuffers
