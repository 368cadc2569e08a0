import PooledBuffers.Text.Decimal

/-!
# Cells of memory

Arrays of elements as memory: `Element` says what an unused cell holds, and `Storage` holds the
edits that keep an array's length: writing a run over a stretch of cells, moving a stretch
within the same array, and blanking.

Main statements: `size_overwrite` and `getElem?_overwrite` say what an overwritten array holds;
the other edits are written in terms of it, but for the move, which copies cell by cell.
-/

namespace PooledBuffers

/-- What an array of `α` needs to know of its elements. -/
class Element (α : Type) where
  /-- The value of a cell that nothing was written to. -/
  blank : α
  /-- Whether a value holds on to resources, so that arrays are blanked before they lie idle. -/
  holdsResources : Bool := false

instance : Element UInt8 := ⟨0, false⟩
instance : Element UInt32 := ⟨0, false⟩
instance : Element Binary64 := ⟨⟨0⟩, false⟩
instance : Element String := ⟨"", true⟩

namespace Storage

variable {α : Type}

/-- The array with the cells from `start` on replaced by the run; what would fall behind the end
is dropped. -/
def overwrite (cells : Array α) (start : Nat) (run : Array α) : Array α :=
  Nat.fold run.size (fun i h acc => acc.setIfInBounds (start + i) run[i]) cells

/-- An array of blank cells. -/
def blank [Element α] (length : Nat) : Array α :=
  Array.replicate length Element.blank

/-- The array with its first `count` cells blanked. -/
def blankFirst [Element α] (cells : Array α) (count : Nat) : Array α :=
  overwrite cells 0 (blank count)

/-- The array with one cell copied to another place. -/
def copyCell (cells : Array α) (source target : Nat) : Array α :=
  match cells[source]? with
  | some value => cells.setIfInBounds target value
  | none => cells

/-- The array with `size` cells from `start` on copied to `target` one by one, the first first. -/
def copyUp (cells : Array α) (start size target : Nat) : Array α :=
  Nat.fold size (fun offset _ cells => copyCell cells (start + offset) (target + offset)) cells

/-- The array with `size` cells from `start` on copied to `target` one by one, the last first. -/
def copyDown (cells : Array α) (start size target : Nat) : Array α :=
  Nat.foldRev size (fun offset _ cells => copyCell cells (start + offset) (target + offset)) cells

/-- The array with `size` cells from `start` on moved to `target` in place, in the order in which
none of them is written over before it was copied. -/
def moveWithin (cells : Array α) (start size target : Nat) : Array α :=
  if target < start then copyUp cells start size target else copyDown cells start size target

/-- Every cell set to one value. -/
def fill (cells : Array α) (value : α) : Array α :=
  Array.replicate cells.size value

/-- The array with one cell replaced, or nothing when there is no such cell. -/
def set? (cells : Array α) (index : Nat) (value : α) : Option (Array α) :=
  if index < cells.size then some (cells.setIfInBounds index value) else none

/-- Values written over the first cells, one each, until either runs out. -/
def assign (cells run : Array α) : Array α :=
  overwrite cells 0 run

/-! ## What the edits leave -/

private theorem fold_set_size (run : Array α) (start : Nat) (cells : Array α) (n : Nat)
    (hn : n ≤ run.size) :
    (Nat.fold n (fun i h acc => acc.setIfInBounds (start + i) run[i]) cells).size
      = cells.size := by
  induction n with
  | zero => simp
  | succ n ih => simp [Nat.fold_succ, ih (by omega)]

@[simp] theorem size_overwrite (cells : Array α) (start : Nat) (run : Array α) :
    (overwrite cells start run).size = cells.size :=
  fold_set_size run start cells run.size (Nat.le_refl _)

private theorem fold_set_getElem? (run : Array α) (start : Nat) (cells : Array α) (n : Nat)
    (hn : n ≤ run.size) (k : Nat) :
    (Nat.fold n (fun i h acc => acc.setIfInBounds (start + i) run[i]) cells)[k]? =
      if k < cells.size ∧ start ≤ k ∧ k < start + n then run[k - start]? else cells[k]? := by
  induction n with
  | zero =>
    have : ¬(k < cells.size ∧ start ≤ k ∧ k < start + 0) := by omega
    rw [if_neg this, Nat.fold_zero]
  | succ n ih =>
    have hsize := fold_set_size run start cells n (by omega)
    rw [Nat.fold_succ, Array.getElem?_setIfInBounds, hsize]
    by_cases hk : start + n = k
    · by_cases hb : start + n < cells.size
      · have : k < cells.size ∧ start ≤ k ∧ k < start + (n + 1) := by omega
        have hn' : k - start = n := by omega
        rw [if_pos hk, if_pos hb, if_pos this, hn', Array.getElem?_eq_getElem (by omega)]
      · have : ¬(k < cells.size ∧ start ≤ k ∧ k < start + (n + 1)) := by omega
        rw [if_pos hk, if_neg hb, if_neg this, Array.getElem?_eq_none (by omega)]
    · rw [if_neg hk, ih (by omega)]
      by_cases hc : k < cells.size ∧ start ≤ k ∧ k < start + n
      · have : k < cells.size ∧ start ≤ k ∧ k < start + (n + 1) := by omega
        rw [if_pos hc, if_pos this]
      · have : ¬(k < cells.size ∧ start ≤ k ∧ k < start + (n + 1)) := by omega
        rw [if_neg hc, if_neg this]

/-- A cell inside the stretch holds the run's element, every other cell what it held. -/
theorem getElem?_overwrite (cells : Array α) (start : Nat) (run : Array α) (k : Nat) :
    (overwrite cells start run)[k]? =
      if k < cells.size ∧ start ≤ k ∧ k < start + run.size then run[k - start]?
      else cells[k]? :=
  fold_set_getElem? run start cells run.size (Nat.le_refl _) k

@[simp] theorem size_blank [Element α] (length : Nat) :
    (blank length : Array α).size = length := by
  simp [blank]

@[simp] theorem size_blankFirst [Element α] (cells : Array α) (count : Nat) :
    (blankFirst cells count).size = cells.size := by
  simp [blankFirst]

@[simp] theorem size_fill (cells : Array α) (value : α) :
    (fill cells value).size = cells.size := by
  simp [fill]

@[simp] theorem size_assign (cells run : Array α) : (assign cells run).size = cells.size := by
  simp [assign]

end Storage

end PooledBuffers
