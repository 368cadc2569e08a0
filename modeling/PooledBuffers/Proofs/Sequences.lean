import PooledBuffers.Storage

/-!
# Sequences at the front of an array

A collection keeps its elements in the first cells of an array that may be longer. The elements
then begin the array's list of cells, and what an edit does to the array it does to them.

* `overlay` — elements with a run laid over the first of them;
* `snoc`, `foldl_snoc` — a run behind the elements, one by one and as a whole;
* `Storage.toList_overwrite` — an overwritten array, cut where the run begins and where it ends;
* `Storage.begins_append`, `Storage.begins_set`, `Storage.begins_overlay` — a run behind the
  elements, a value stored among them, a run laid over them.
-/

namespace PooledBuffers

variable {α : Type}

/-- The first elements of a list overwritten by a run, one each, until either runs out. -/
def overlay (all run : List α) : List α := run.take all.length ++ all.drop run.length

@[simp] theorem length_overlay (all run : List α) : (overlay all run).length = all.length := by
  simp only [overlay, List.length_append, List.length_take, List.length_drop]
  omega

theorem getElem?_overlay {all : List α} (run : List α) {index : Nat} (inside : index < all.length) :
    (overlay all run)[index]? = if index < run.length then run[index]? else all[index]? := by
  rw [overlay, List.getElem?_append, List.length_take]
  by_cases covered : index < run.length
  · rw [if_pos (by omega), if_pos covered, List.getElem?_take_of_lt inside]
  · rw [if_neg (by omega), if_neg covered, List.getElem?_drop]
    congr 1
    omega

/-- A run as long as the list replaces all of it. -/
theorem overlay_of_length_eq {all run : List α} (same : run.length = all.length) :
    overlay all run = run := by
  rw [overlay, ← same, List.take_length, same, List.drop_length, List.append_nil]

/-! ## Growth -/

theorem length_le_foldl {next : List α → α → List α}
    (grows : ∀ items value, items.length ≤ (next items value).length) (run items : List α) :
    items.length ≤ (run.foldl next items).length := by
  induction run generalizing items with
  | nil => exact Nat.le_refl _
  | cons value rest ih => exact Nat.le_trans (grows items value) (ih (next items value))

/-- One element more at the end. -/
def snoc (items : List α) (value : α) : List α := items ++ [value]

theorem length_le_snoc (items : List α) (value : α) :
    items.length ≤ (snoc items value).length := by
  rw [snoc, List.length_append]
  exact Nat.le_add_right _ _

theorem foldl_snoc (run items : List α) : run.foldl snoc items = items ++ run := by
  induction run generalizing items with
  | nil => exact (List.append_nil items).symm
  | cons value rest ih =>
    rw [List.foldl_cons, ih, snoc, ← List.append_cons]

/-! ## Arrays -/

namespace Storage

theorem toList_overwrite {cells run : Array α} {start : Nat}
    (inside : start + run.size ≤ cells.size) :
    (overwrite cells start run).toList =
      cells.toList.take start ++ run.toList ++ cells.toList.drop (start + run.size) := by
  apply List.ext_getElem?
  intro k
  have front : (cells.toList.take start).length = start := by
    rw [List.length_take, Array.length_toList]
    omega
  rw [Array.getElem?_toList, getElem?_overwrite, List.append_assoc]
  by_cases before : k < start
  · rw [if_neg (by omega), List.getElem?_append_left (front.symm ▸ before),
      List.getElem?_take_of_lt before, Array.getElem?_toList]
  rw [List.getElem?_append_right (by omega), front]
  by_cases within : k < start + run.size
  · rw [if_pos (by omega), List.getElem?_append_left (by rw [Array.length_toList]; omega),
      Array.getElem?_toList]
  · rw [if_neg (by omega), List.getElem?_append_right (by rw [Array.length_toList]; omega),
      List.getElem?_drop, Array.length_toList, Array.getElem?_toList]
    congr 1
    omega

/-- A run is found where it was written. -/
theorem extract_overwrite_self {cells run : Array α} {start : Nat}
    (inside : start + run.size ≤ cells.size) :
    (overwrite cells start run).extract start (start + run.size) = run := by
  apply Array.ext_getElem?
  intro k
  rw [Array.getElem?_extract, getElem?_overwrite, size_overwrite]
  by_cases within : k < run.size
  · rw [if_pos (by omega), if_pos (by omega), Nat.add_sub_cancel_left]
  · rw [if_neg (by omega), Array.getElem?_eq_none (by omega)]

variable {items : List α} {cells : Array α}

/-- A run behind the elements. -/
theorem begins_append (begins : items <+: cells.toList) (run : Array α)
    (room : items.length + run.size ≤ cells.size) :
    items ++ run.toList <+: (overwrite cells items.length run).toList := by
  obtain ⟨rest, split⟩ := begins
  refine ⟨cells.toList.drop (items.length + run.size), ?_⟩
  rw [toList_overwrite room, ← split, List.take_left]

/-- A run put into the first cells begins the array. -/
theorem begins_run (cells run : Array α) (room : run.size ≤ cells.size) :
    run.toList <+: (overwrite cells 0 run).toList := by
  have behind := @begins_append α [] cells ⟨cells.toList, rfl⟩ run (by simpa using room)
  exact behind

theorem begins_set (begins : items <+: cells.toList) (index : Nat) (value : α) :
    items.set index value <+: (cells.setIfInBounds index value).toList := by
  obtain ⟨rest, split⟩ := begins
  rw [Array.toList_setIfInBounds, ← split, List.set_append]
  split
  · exact ⟨rest, rfl⟩
  · rename_i outside
    rw [List.set_eq_of_length_le (Nat.le_of_not_lt outside)]
    exact ⟨_, rfl⟩

theorem begins_overlay (begins : items <+: cells.toList) (run : Array α) :
    overlay items run.toList <+: (overwrite cells 0 (run.extract 0 items.length)).toList := by
  obtain ⟨rest, split⟩ := begins
  have size : items.length + rest.length = cells.size := by
    rw [← List.length_append, split, Array.length_toList]
  have covered : (run.extract 0 items.length).size = min items.length run.size := by
    rw [Array.size_extract]
    omega
  -- What the run leaves of the elements stays, and all that is behind them.
  have left : items.drop (min items.length run.size) = items.drop run.size := by
    by_cases all : items.length ≤ run.size
    · rw [Nat.min_eq_left all, List.drop_length, List.drop_eq_nil_of_le all]
    · rw [Nat.min_eq_right (Nat.le_of_not_le all)]
  refine ⟨rest, ?_⟩
  rw [toList_overwrite (by omega), ← split, covered, Nat.zero_add,
    List.drop_append_of_le_length (Nat.min_le_left _ _), left, overlay,
    Array.toList_extract, List.extract_eq_take_drop, List.drop_zero, Nat.sub_zero, List.take_zero,
    List.nil_append, List.append_assoc, @Array.length_toList _ run]

/-- The elements are the first cells. -/
theorem toList_extract_of_begins (begins : items <+: cells.toList) :
    (cells.extract 0 items.length).toList = items := by
  obtain ⟨rest, split⟩ := begins
  rw [Array.toList_extract, ← split]
  simp

end Storage

end PooledBuffers
