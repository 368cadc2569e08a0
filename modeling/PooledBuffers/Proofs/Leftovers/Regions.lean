import PooledBuffers.Proofs.Leftovers.Writers
import PooledBuffers.Proofs.Regions.Table

/-!
# Region stores without leftovers

A store reads its handles, its headers and its regions from the memory of a writer, so that stores
on writers that are alike do the same. That goes for the cells of the two areas in front that are
not in use, too, which are among the bytes that a store shows.

* `RegionStore.Alike` — stores on writers that are alike, of the same layout;
* `RegionStore.Alike.appendItems`, `RegionStore.Alike.clear`, … — the same refusal, or stores alike;
* `RegionStore.Alike.perform` — the same answers, and still alike.
-/

namespace PooledBuffers.RegionStore

open Regions

/-- Stores that differ in their writers only, which are alike. -/
def Alike (store other : RegionStore) : Prop :=
  ∃ writer, store.writer.Alike writer ∧ other = { store with writer := writer }

variable {store other : RegionStore} {pool pool' : Pool UInt8}

theorem alike_onMemory (cells : Array UInt8) : (onMemory cells).Alike (onMemory cells) :=
  ⟨_, Writer.alike_onMemory cells, rfl⟩

theorem alike_withCapacity (pools : pool.Alike pool') (length : Nat) :
    OnAlike Alike (withCapacity pool length) (withCapacity pool' length) :=
  have made := Writer.alike_withCapacity pools length
  ⟨⟨_, made.object, rfl⟩, made.pool⟩

namespace Alike

/-! ## Looking -/

theorem writer (alike : store.Alike other) : store.writer.Alike other.writer := by
  obtain ⟨writer, writers, rfl⟩ := alike
  exact writers

theorem bytes (alike : store.Alike other) : store.bytes = other.bytes := alike.writer.written

theorem regionCount (alike : store.Alike other) : store.regionCount = other.regionCount := by
  obtain ⟨writer, writers, rfl⟩ := alike
  rfl

theorem headerLength (alike : store.Alike other) : store.headerLength = other.headerLength := by
  obtain ⟨writer, writers, rfl⟩ := alike
  rfl

theorem dataLength (alike : store.Alike other) : store.dataLength = other.dataLength := by
  obtain ⟨writer, writers, rfl⟩ := alike
  rfl

theorem handleAt (alike : store.Alike other) (place : Nat) :
    store.handleAt place = other.handleAt place :=
  congrArg (Layout.ofBytes .little) (alike.writer.slice place handleSize)

theorem headerAt (alike : store.Alike other) (offset : Nat) :
    store.headerAt offset = other.headerAt offset := by
  obtain ⟨writer, writers, rfl⟩ := alike
  exact congrArg (Layout.ofBytes .little) (writers.slice _ headerSize)

theorem header? (alike : store.Alike other) (id : Nat) : store.header? id = other.header? id := by
  simp only [RegionStore.header?, alike.regionCount, alike.handleAt, alike.headerAt]

theorem range (alike : store.Alike other) (id : Nat) : store.range id = other.range id := by
  have found := alike.header? id
  obtain ⟨writer, writers, rfl⟩ := alike
  simp only [RegionStore.range, found, dataStart]

theorem span (alike : store.Alike other) (id : Nat) : store.span id = other.span id := by
  simp only [RegionStore.span, alike.range, alike.writer.slice]

theorem spanLength (alike : store.Alike other) (id : Nat) :
    store.spanLength id = other.spanLength id := by
  simp only [RegionStore.spanLength, alike.header?]

theorem itemCount (alike : store.Alike other) (id : Nat) :
    store.itemCount id = other.itemCount id := by
  simp only [RegionStore.itemCount, alike.header?]

theorem readValue (τ : Type) [Layout τ] (alike : store.Alike other) (id index : Nat) :
    store.readValue τ id index = other.readValue τ id index := by
  simp only [RegionStore.readValue, alike.span]

/-! ## Writing over memory that is there -/

theorem put (alike : store.Alike other) (place : Nat) (run : Array UInt8) :
    (store.put place run).Alike (other.put place run) := by
  obtain ⟨writer, writers, rfl⟩ := alike
  exact ⟨_, writers.edit (Storage.respects_overwrite rfl run), rfl⟩

theorem putHandle (alike : store.Alike other) (place : Nat) (handle : UInt32) :
    (store.putHandle place handle).Alike (other.putHandle place handle) :=
  alike.put place _

theorem putHeader (alike : store.Alike other) (offset : Nat) (header : Header) :
    (store.putHeader offset header).Alike (other.putHeader offset header) := by
  obtain ⟨writer, writers, rfl⟩ := alike
  exact Alike.put ⟨writer, writers, rfl⟩ _ _

theorem updateOthers (alike : store.Alike other) (handle : UInt32) (f : Header → Header) :
    (store.updateOthers handle f).Alike (other.updateOthers handle f) := by
  have offsets : store.headerOffsets = other.headerOffsets := by
    rw [headerOffsets, headerOffsets, activeCount, activeCount, alike.headerLength]
  unfold RegionStore.updateOthers
  rw [offsets]
  refine List.foldl_rel (r := Alike) alike fun offset _ store other alike => ?_
  split
  · exact alike
  · rw [alike.headerAt]
    exact alike.putHeader offset _

theorem setSpan? (alike : store.Alike other) (id index : Nat) (value : UInt8) :
    SameOutcome (Option.Rel Alike) (store.setSpan? id index value)
      (other.setSpan? id index value) := by
  unfold RegionStore.setSpan?
  rw [← alike.range]
  refine (SameOutcome.same _).bind fun place _ same => ?_
  subst same
  simp only
  split
  · exact .done (.some (alike.put _ _))
  · exact .done .none

/-! ## Moving memory -/

theorem syncPosition (alike : store.Alike other) (pools : pool.Alike pool') :
    OnAlike Alike (store.syncPosition pool) (other.syncPosition pool') := by
  obtain ⟨writer, writers, rfl⟩ := alike
  obtain ⟨moved, after⟩ := writers.advanceTo pools store.usedEnd
  exact ⟨⟨_, moved, rfl⟩, after⟩

theorem move (alike : store.Alike other) (pools : pool.Alike pool') (start size target : Nat) :
    SameOutcome (OnAlike Alike) (store.move start size target pool)
      (other.move start size target pool') := by
  obtain ⟨writer, writers, rfl⟩ := alike
  unfold RegionStore.move
  refine (writers.moveWithin pools start size target false).bind fun _ _ moved => ?_
  exact .done ⟨⟨_, moved.object, rfl⟩, moved.pool⟩

/-- A change of the layout that has nothing to do with the writer. -/
theorem layout (alike : store.Alike other) {f : RegionStore → RegionStore}
    (keeps : ∀ (store : RegionStore) writer,
      f { store with writer := writer } = { f store with writer := writer }) :
    (f store).Alike (f other) := by
  obtain ⟨writer, writers, rfl⟩ := alike
  have same := congrArg RegionStore.writer (keeps store store.writer)
  have same : (f store).writer = store.writer := same
  exact ⟨writer, same ▸ writers, keeps store writer⟩

theorem growHandles (alike : store.Alike other) (pools : pool.Alike pool') (needed : Nat) :
    SameOutcome (OnAlike Alike) (store.growHandles needed pool)
      (other.growHandles needed pool') := by
  obtain ⟨writer, writers, rfl⟩ := alike
  have alike : store.Alike { store with writer := writer } := ⟨writer, writers, rfl⟩
  unfold RegionStore.growHandles
  by_cases enough : needed ≤ store.handleCapacity
  · simp only [if_pos enough]
    exact .done ⟨alike, pools⟩
  · simp only [if_neg enough]
    refine (alike.move pools _ _ _).bind fun _ _ moved => ?_
    exact .done ⟨moved.object.layout (f := fun moved =>
      { moved with handleCapacity := max needed (store.handleCapacity * 2) }) fun _ _ => rfl,
      moved.pool⟩

theorem growHeaders (alike : store.Alike other) (pools : pool.Alike pool') (needed : Nat) :
    SameOutcome (OnAlike Alike) (store.growHeaders needed pool)
      (other.growHeaders needed pool') := by
  obtain ⟨writer, writers, rfl⟩ := alike
  have alike : store.Alike { store with writer := writer } := ⟨writer, writers, rfl⟩
  unfold RegionStore.growHeaders
  by_cases enough : needed ≤ store.headerCapacity
  · simp only [if_pos enough]
    exact .done ⟨alike, pools⟩
  · simp only [if_neg enough]
    refine (alike.move pools _ _ _).bind fun _ _ moved => ?_
    exact .done ⟨moved.object.layout (f := fun moved =>
      { moved with headerCapacity := max needed (store.headerCapacity * 2) }) fun _ _ => rfl,
      moved.pool⟩

/-! ## Regions -/

theorem addRegion (alike : store.Alike other) (pools : pool.Alike pool') :
    SameOutcome (SameAnswer Alike) (store.addRegion pool) (other.addRegion pool') := by
  unfold RegionStore.addRegion
  rw [← alike.regionCount]
  by_cases many : maxWord < store.regionCount + 1
  · simp only [if_pos many]
    exact .refused _
  · simp only [if_neg many]
    refine (alike.growHandles pools _).bind fun _ _ grown => ?_
    have added := grown.object.layout
      (f := fun grown => { grown with regionCount := store.regionCount + 1 }) fun _ _ => rfl
    exact .done ⟨rfl, (added.putHandle _ _).syncPosition grown.pool⟩

theorem openRegion (alike : store.Alike other) (pools : pool.Alike pool') (id : Nat) :
    SameOutcome (SameAnswer Alike) (store.openRegion id pool) (other.openRegion id pool') := by
  unfold RegionStore.openRegion
  rw [← alike.headerLength]
  refine (alike.growHeaders pools _).bind fun ⟨grown, middle⟩ ⟨grown', middle'⟩ both => ?_
  obtain ⟨alike, pools⟩ := both
  have alike : grown.Alike grown' := alike
  have opened := alike.layout
    (f := fun grown => { grown with headerLength := grown.headerLength + headerSize })
    fun _ _ => rfl
  simp only [← alike.headerLength, ← alike.dataLength] at opened ⊢
  refine (SameOutcome.same _).bind fun handle _ same => ?_
  subst same
  refine (SameOutcome.same _).bind fun offset _ same => ?_
  subst same
  exact .done ⟨rfl, (opened.putHeader _ _).putHandle _ _, pools⟩

theorem locate (alike : store.Alike other) (pools : pool.Alike pool') (id : Nat) :
    SameOutcome (SameAnswer Alike) (store.locate id pool) (other.locate id pool') := by
  unfold RegionStore.locate
  rw [← alike.header?]
  refine (SameOutcome.same _).bind fun found _ same => ?_
  subst same
  cases found with
  | some found => exact .done ⟨rfl, alike, pools⟩
  | none => exact alike.openRegion pools id

theorem spread (alike : store.Alike other) (pools : pool.Alike pool') (stop : Nat)
    (run : Array UInt8) :
    SameOutcome (OnAlike Alike) (store.spread stop run pool) (other.spread stop run pool') := by
  obtain ⟨writer, writers, rfl⟩ := alike
  obtain ⟨moved, middle⟩ := writers.advanceTo pools (store.usedEnd + run.size)
  unfold RegionStore.spread
  have alike : Alike { store with writer := (store.writer.advanceTo _ pool).1 }
    { store with writer := (writer.advanceTo _ pool').1 } := ⟨_, moved, rfl⟩
  refine (alike.move middle _ _ _).bind fun ⟨moved, rest⟩ ⟨moved', rest'⟩ both => ?_
  obtain ⟨alike, pools⟩ := both
  refine .done ⟨?_, pools⟩
  exact (Alike.put alike _ run).layout (f := fun placed =>
    { placed with dataLength := placed.dataLength + run.size }) fun _ _ => rfl

theorem insert (alike : store.Alike other) (pools : pool.Alike pool') (handle : UInt32)
    (header : Header) (run : Array UInt8) (items : Nat) :
    SameOutcome (OnAlike Alike) (store.insert handle header run items pool)
      (other.insert handle header run items pool') := by
  unfold RegionStore.insert
  refine (alike.spread pools _ run).bind fun ⟨spread, rest⟩ ⟨spread', rest'⟩ both => ?_
  obtain ⟨alike, pools⟩ := both
  have raised : (spread.raiseOthers handle header.dataEnd run).Alike
      (spread'.raiseOthers handle header.dataEnd run) := by
    unfold raiseOthers
    split
    · exact alike
    · exact Alike.updateOthers alike handle _
  exact .done ((raised.putHeader _ _).syncPosition pools)

theorem appendItems (alike : store.Alike other) (pools : pool.Alike pool') (id : Nat)
    (run : Array UInt8) (items : Nat) :
    SameOutcome (OnAlike Alike) (store.appendItems id run items pool)
      (other.appendItems id run items pool') := by
  by_cases short : run.size ≤ maxWord
  · by_cases fits : store.dataLength + run.size ≤ maxWord
    · rw [appendItems_eq short fits, appendItems_eq short (alike.dataLength ▸ fits)]
      refine (alike.locate pools id).bind ?_
      rintro ⟨found, located, middle⟩ ⟨_, located', middle'⟩ ⟨rfl, alike, pools⟩
      exact Alike.insert alike pools _ _ run items
    · have long : maxWord < Size.add store.dataLength run.size := by
        have below : maxWord < Size.top := by decide
        unfold Size.add
        omega
      unfold RegionStore.appendItems
      rw [← alike.dataLength, checkWord, if_neg (Nat.not_lt.2 short), checkWord, if_pos long]
      exact .refused _
  · unfold RegionStore.appendItems
    rw [checkWord, if_pos (Nat.lt_of_not_le short)]
    exact .refused _

theorem append (alike : store.Alike other) (pools : pool.Alike pool') (id : Nat)
    (run : Array UInt8) :
    SameOutcome (OnAlike Alike) (store.append id run pool) (other.append id run pool') :=
  alike.appendItems pools id run 0

theorem appendValue {τ : Type} [Layout τ] (alike : store.Alike other) (pools : pool.Alike pool')
    (id : Nat) (value : τ) :
    SameOutcome (OnAlike Alike) (store.appendValue id value pool)
      (other.appendValue id value pool') :=
  (SameOutcome.same _).bind fun _ _ _ => alike.appendItems pools id _ 1

theorem removeData (alike : store.Alike other) (pools : pool.Alike pool') (handle : UInt32)
    (removed : Header) :
    SameOutcome (OnAlike Alike) (store.removeData handle removed pool)
      (other.removeData handle removed pool') := by
  obtain ⟨writer, writers, rfl⟩ := alike
  have alike : store.Alike { store with writer := writer } := ⟨writer, writers, rfl⟩
  unfold RegionStore.removeData
  split
  · exact .done ⟨alike, pools⟩
  · refine (alike.move pools _ _ _).bind fun ⟨moved, middle⟩ ⟨moved', middle'⟩ both => ?_
    obtain ⟨alike, pools⟩ := both
    have shorter := Alike.layout alike (f := fun moved =>
      { moved with dataLength := moved.dataLength - removed.dataLength.toNat }) fun _ _ => rfl
    dsimp only at shorter ⊢
    refine .done ⟨?_, pools⟩
    exact shorter.updateOthers handle (·.lower removed.dataEnd removed.dataLength)

theorem removeHeader (alike : store.Alike other) (pools : pool.Alike pool') (handle : UInt32) :
    SameOutcome (OnAlike Alike) (store.removeHeader handle pool)
      (other.removeHeader handle pool') := by
  obtain ⟨writer, writers, rfl⟩ := alike
  have alike : store.Alike { store with writer := writer } := ⟨writer, writers, rfl⟩
  unfold RegionStore.removeHeader
  refine (alike.move pools _ _ _).bind fun ⟨moved, middle⟩ ⟨moved', middle'⟩ both => ?_
  obtain ⟨alike, pools⟩ := both
  have shorter := Alike.layout alike (f := fun moved =>
    { moved with headerLength := moved.headerLength - headerSize }) fun _ _ => rfl
  have ids : List.range moved.regionCount = List.range moved'.regionCount :=
    congrArg List.range (Alike.regionCount alike)
  dsimp only at shorter ⊢
  rw [ids]
  refine .done ⟨?_, pools⟩
  refine List.foldl_rel (r := Alike) shorter fun id _ store other alike => ?_
  rw [← alike.handleAt]
  split
  · exact alike.putHandle _ _
  · exact alike

theorem clear (alike : store.Alike other) (pools : pool.Alike pool') (id : Nat) :
    SameOutcome (OnAlike Alike) (store.clear id pool) (other.clear id pool') := by
  unfold RegionStore.clear
  rw [← alike.header?]
  refine (SameOutcome.same _).bind fun found _ same => ?_
  subst same
  cases found with
  | none => exact .done ⟨alike, pools⟩
  | some found =>
    refine (alike.removeData pools _ _).bind fun _ _ closed => ?_
    refine (closed.object.removeHeader closed.pool _).bind fun _ _ closed => ?_
    exact .done ((closed.object.putHandle _ _).syncPosition closed.pool)

theorem dispose (alike : store.Alike other) (pools : pool.Alike pool') :
    OnAlike Alike (store.dispose pool) (other.dispose pool') :=
  have released := alike.writer.dispose pools
  ⟨⟨_, released.object, rfl⟩, released.pool⟩

/-! ## Operations -/

theorem perform (alike : store.Alike other) (pools : pool.Alike pool') (action : Action) :
    SameAnswer Alike (store.perform pool action) (other.perform pool' action) := by
  have answered {outcome outcome' : Except Error (RegionStore × Pool UInt8)}
      (outcomes : SameOutcome (OnAlike Alike) outcome outcome') :
      SameAnswer Alike (answer (store, pool) outcome) (answer (other, pool') outcome') := by
    cases outcomes with
    | refused refusal => exact ⟨rfl, alike, pools⟩
    | done both => exact ⟨rfl, both⟩
  cases action with
  | addRegion =>
    have added := alike.addRegion pools
    simp only [RegionStore.perform]
    generalize store.addRegion pool = outcome at added ⊢
    generalize other.addRegion pool' = outcome' at added ⊢
    cases added with
    | refused refusal => exact ⟨rfl, alike, pools⟩
    | done both => exact ⟨congrArg Reply.count both.answer, both.state⟩
  | append id run => exact answered (alike.append pools id run)
  | appendValue id value => exact answered (alike.appendValue pools id value)
  | setSpan id index value =>
    have stored := alike.setSpan? id index value
    simp only [RegionStore.perform]
    generalize store.setSpan? id index value = outcome at stored ⊢
    generalize other.setSpan? id index value = outcome' at stored ⊢
    cases stored with
    | refused refusal => exact ⟨rfl, alike, pools⟩
    | done stored =>
      cases stored with
      | none => exact ⟨rfl, alike, pools⟩
      | some stored => exact ⟨rfl, stored, pools⟩
  | clear id => exact answered (alike.clear pools id)
  | dispose => exact ⟨rfl, alike.dispose pools⟩

end Alike

end PooledBuffers.RegionStore
