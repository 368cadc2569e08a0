import PooledBuffers.Proofs.Moving

/-!
# Tapes

A tape is memory without an end: a value for every position. Memory that grows is compared with
a tape, on which a growth cannot be seen.

* `Tape.put`, `Tape.move` — a run written over a stretch, and a stretch copied to another place;
* `Tape.stretch` — the values of a stretch, as they are read back;
* `Tape.ofArray` — an array, with blanks behind its end;
* `Tape.ofArray_overwrite`, `Tape.ofArray_moveWithin` — edits of an array are edits of its tape,
  as long as they stay inside the array.
-/

namespace PooledBuffers

/-- A value for every position. -/
abbrev Tape (α : Type) := Nat → α

namespace Tape

variable {α : Type}

/-- The tape with a run written over it from `start` on. -/
def put (tape : Tape α) (start : Nat) (run : Array α) : Tape α :=
  fun i => if start ≤ i then (run[i - start]?).getD (tape i) else tape i

/-- The `count` values from `start` on. -/
def stretch (tape : Tape α) (start count : Nat) : Array α :=
  Array.ofFn fun i : Fin count => tape (start + i)

/-- The tape with `size` values from `start` on copied to `target`. -/
def move (tape : Tape α) (start size target : Nat) : Tape α :=
  tape.put target (tape.stretch start size)

/-- An array, with blanks behind its end. -/
def ofArray [Element α] (cells : Array α) : Tape α :=
  fun i => (cells[i]?).getD Element.blank

/-- The tape without anything on it. -/
def empty [Element α] : Tape α := fun _ => Element.blank

/-! ## Writing and reading back -/

theorem put_apply_of_lt {tape : Tape α} {start : Nat} {run : Array α} {i : Nat}
    (h : i < start) : tape.put start run i = tape i := by
  rw [put, if_neg (by omega)]

theorem put_apply_of_le {tape : Tape α} {start : Nat} {run : Array α} {i : Nat}
    (h : start + run.size ≤ i) : tape.put start run i = tape i := by
  rw [put, if_pos (by omega), Array.getElem?_eq_none (by omega), Option.getD_none]

theorem put_apply_of_mem {tape : Tape α} {start : Nat} {run : Array α} {i : Nat}
    (below : start ≤ i) (h : i - start < run.size) : tape.put start run i = run[i - start] := by
  rw [put, if_pos below, Array.getElem?_eq_getElem h, Option.getD_some]

@[simp] theorem put_empty (tape : Tape α) (start : Nat) : tape.put start #[] = tape := by
  funext i
  simp [put]

/-- Two runs written one behind the other are one longer run. -/
theorem put_put_append (tape : Tape α) (start : Nat) (first second : Array α) :
    (tape.put start first).put (start + first.size) second = tape.put start (first ++ second) := by
  funext i
  by_cases front : i < start
  · rw [put_apply_of_lt (by omega), put_apply_of_lt front, put_apply_of_lt front]
  · -- The second run covers nothing of the first, and both are read from their own starts.
    by_cases middle : i < start + first.size
    · rw [put_apply_of_lt middle, put, put, if_pos (by omega), if_pos (by omega),
        Array.getElem?_append_left (by omega)]
    · have place : i - start - first.size = i - (start + first.size) := by omega
      have behind : first.size ≤ i - start := by omega
      simp only [put, if_pos (show start ≤ i by omega),
        if_pos (show start + first.size ≤ i by omega), Array.getElem?_append_right behind,
        Array.getElem?_eq_none behind, place, Option.getD_none]

@[simp] theorem size_stretch (tape : Tape α) (start count : Nat) :
    (tape.stretch start count).size = count := by
  simp [stretch]

@[simp] theorem getElem_stretch (tape : Tape α) (start count : Nat) (i : Nat)
    (h : i < (tape.stretch start count).size) :
    (tape.stretch start count)[i] = tape (start + i) := by
  simp [stretch]

theorem stretch_congr {tape other : Tape α} {start start' count : Nat}
    (h : ∀ i < count, tape (start + i) = other (start' + i)) :
    tape.stretch start count = other.stretch start' count := by
  apply Array.ext (by simp)
  intro i inside _
  rw [size_stretch] at inside
  simpa using h i inside

@[simp] theorem stretch_zero (tape : Tape α) (start : Nat) : tape.stretch start 0 = #[] :=
  Array.eq_empty_of_size_eq_zero (size_stretch _ _ _)

/-- A run reads back from where it was written. -/
theorem stretch_put (tape : Tape α) (start : Nat) (run : Array α) :
    (tape.put start run).stretch start run.size = run := by
  apply Array.ext (by simp)
  intro i inside _
  rw [size_stretch] at inside
  rw [getElem_stretch, put_apply_of_mem (by omega) (by omega)]
  simp

/-- A stretch in front of what is written, or behind it, stays as it was. -/
theorem stretch_put_of_disjoint (tape : Tape α) {start count target : Nat} {run : Array α}
    (h : start + count ≤ target ∨ target + run.size ≤ start) :
    (tape.put target run).stretch start count = tape.stretch start count := by
  apply stretch_congr
  intro i inside
  rcases h with front | behind
  · exact put_apply_of_lt (by omega)
  · exact put_apply_of_le (by omega)

/-- A value written into a stretch replaces one of its values. -/
theorem stretch_put_singleton (tape : Tape α) (start count index : Nat) (value : α) :
    (tape.put (start + index) #[value]).stretch start count =
      (tape.stretch start count).setIfInBounds index value := by
  apply Array.ext (by simp)
  intro i below _
  rw [size_stretch] at below
  rw [getElem_stretch, Array.getElem_setIfInBounds (by simpa using below)]
  split
  · rename_i here
    rw [put_apply_of_mem (by omega) (by simp; omega)]
    simp
  · rename_i elsewhere
    rw [getElem_stretch]
    rcases Nat.lt_or_gt_of_ne elsewhere with behind | front
    · exact put_apply_of_le (by simp; omega)
    · exact put_apply_of_lt (by omega)

theorem stretch_append (tape : Tape α) (start count more : Nat) :
    tape.stretch start count ++ tape.stretch (start + count) more =
      tape.stretch start (count + more) := by
  apply Array.ext (by simp)
  intro i inside _
  rw [Array.getElem_append]
  split
  · simp
  · rename_i behind
    rw [size_stretch] at behind
    have place : start + count + (i - count) = start + i := by omega
    simp [place]

/-- A run written behind a stretch makes it longer. -/
theorem stretch_put_append (tape : Tape α) (count : Nat) (run : Array α) :
    tape.stretch 0 count ++ run = (tape.put count run).stretch 0 (count + run.size) := by
  have front : (tape.put count run).stretch 0 count = tape.stretch 0 count :=
    tape.stretch_put_of_disjoint (.inl (by omega))
  have back := tape.stretch_put count run
  rw [← stretch_append, front, Nat.zero_add, back]

theorem extract_stretch (tape : Tape α) {start count first last : Nat} (h : last ≤ count) :
    (tape.stretch start count).extract first last =
      tape.stretch (start + first) (last - first) := by
  apply Array.ext (by simp; omega)
  intro i _ _
  simp [Nat.add_assoc]

/-! ## Moving -/

theorem move_apply_of_lt {tape : Tape α} {start size target i : Nat} (h : i < target) :
    tape.move start size target i = tape i :=
  put_apply_of_lt h

theorem move_apply_of_le {tape : Tape α} {start size target i : Nat} (h : target + size ≤ i) :
    tape.move start size target i = tape i :=
  put_apply_of_le (by simpa using h)

theorem move_apply_of_mem {tape : Tape α} {start size target i : Nat} (below : target ≤ i)
    (h : i < target + size) : tape.move start size target i = tape (start + (i - target)) := by
  rw [move, put_apply_of_mem below (by rw [size_stretch]; omega), getElem_stretch]

@[simp] theorem move_zero (tape : Tape α) (start target : Nat) :
    tape.move start 0 target = tape := by
  simp [move, stretch]

/-- Moving a stretch onto itself changes nothing. -/
@[simp] theorem move_self (tape : Tape α) (start size : Nat) :
    tape.move start size start = tape := by
  funext i
  by_cases inside : start ≤ i ∧ i < start + size
  · rw [move_apply_of_mem inside.1 inside.2]
    congr 1
    omega
  · rcases Nat.lt_or_ge i start with front | behind
    · exact move_apply_of_lt front
    · exact move_apply_of_le (by omega)

/-- A part of what was moved is read at the same distance from the new start. -/
theorem stretch_move (tape : Tape α) (start target : Nat) {size offset count : Nat}
    (inside : offset + count ≤ size) :
    (tape.move start size target).stretch (target + offset) count =
      tape.stretch (start + offset) count := by
  apply stretch_congr
  intro i below
  rw [move_apply_of_mem (by omega) (by omega)]
  congr 1
  omega

theorem stretch_move_of_disjoint (tape : Tape α) {start size target first count : Nat}
    (h : first + count ≤ target ∨ target + size ≤ first) :
    (tape.move start size target).stretch first count = tape.stretch first count :=
  stretch_put_of_disjoint tape (by simpa using h)

/-! ## Arrays as tapes -/

variable [Element α]

theorem ofArray_apply_of_le {cells : Array α} {i : Nat} (h : cells.size ≤ i) :
    ofArray cells i = Element.blank := by
  rw [ofArray, Array.getElem?_eq_none h, Option.getD_none]

theorem ofArray_apply {cells : Array α} {i : Nat} (h : i < cells.size) :
    ofArray cells i = cells[i] := by
  rw [ofArray, Array.getElem?_eq_getElem h, Option.getD_some]

@[simp] theorem ofArray_empty : ofArray (#[] : Array α) = empty := by
  funext i
  exact ofArray_apply_of_le (by simp)

theorem ofArray_overwrite {cells run : Array α} {start : Nat}
    (h : start + run.size ≤ cells.size) :
    ofArray (Storage.overwrite cells start run) = (ofArray cells).put start run := by
  funext i
  -- Inside the array the run is written on both sides; behind its end there are only blanks.
  rw [ofArray, Storage.getElem?_overwrite]
  by_cases inside : start ≤ i ∧ i < start + run.size
  · rw [if_pos (by omega), put_apply_of_mem inside.1 (by omega),
      Array.getElem?_eq_getElem (by omega), Option.getD_some]
  · rw [if_neg (by omega)]
    rcases Nat.lt_or_ge i start with front | behind
    · rw [put_apply_of_lt front, ofArray]
    · rw [put_apply_of_le (by omega), ofArray]

/-- What an array shows of a stretch inside it is what its tape shows. -/
theorem extract_eq_stretch {cells : Array α} {start count : Nat}
    (h : start + count ≤ cells.size) :
    cells.extract start (start + count) = (ofArray cells).stretch start count := by
  apply Array.ext (by simp; omega)
  intro i inside _
  rw [Array.size_extract] at inside
  rw [getElem_stretch, ofArray_apply (by omega), Array.getElem_extract]

theorem ofArray_moveWithin {cells : Array α} {start size target : Nat}
    (source : start + size ≤ cells.size) (room : target + size ≤ cells.size) :
    ofArray (Storage.moveWithin cells start size target) =
      (ofArray cells).move start size target := by
  rw [Storage.moveWithin_eq, extract_eq_stretch source, ofArray_overwrite (by simpa using room),
    move]

/-- An array is the start of its tape. -/
theorem eq_stretch_ofArray {cells : Array α} : cells = (ofArray cells).stretch 0 cells.size := by
  have whole : cells.extract 0 (0 + cells.size) = (ofArray cells).stretch 0 cells.size :=
    extract_eq_stretch (by omega)
  rw [← whole]
  simp

end Tape

end PooledBuffers
