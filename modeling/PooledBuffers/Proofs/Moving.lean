import PooledBuffers.Storage

/-!
# Moving cells in place

A move copies cell by cell within one array, so that a cell could be written over before it was
copied. The order in which it copies prevents this: cells that move to the front are copied from the
first on, all others from the last on.

* `Storage.Copied` — the array once the cells of some offsets were copied: the invariant of both
  orders;
* `Storage.Copied.step` — one more cell, read where nothing was written to;
* `Storage.copied_copyUp`, `Storage.copied_copyDown` — all cells, in either order;
* `Storage.moveWithin_eq` — a move writes over its target what was at its source before.
-/

namespace PooledBuffers.Storage

variable {α : Type}

/-- The cells once those at the offsets from `low` to before `high` were copied: they hold what was
at their source in the `old` array, and all others what they held there. -/
structure Copied (old : Array α) (start target low high : Nat) (cells : Array α) : Prop where
  size : cells.size = old.size
  get : ∀ k, k < old.size → cells[k]? =
    if target + low ≤ k ∧ k < target + high ∧ start + (k - target) < old.size then
      old[start + (k - target)]?
    else old[k]?

variable {old cells : Array α} {start target low high offset : Nat}

theorem copied_none (old : Array α) (start target place : Nat) :
    Copied old start target place place old :=
  ⟨rfl, fun k _ => (if_neg (by omega)).symm⟩

theorem Copied.get_unread (copied : Copied old start target low high cells) {k : Nat}
    (unread : k < target + low ∨ target + high ≤ k) : cells[k]? = old[k]? := by
  by_cases inside : k < old.size
  · rw [copied.get k inside, if_neg (by omega)]
  · have size := copied.size
    rw [Array.getElem?_eq_none (by omega), Array.getElem?_eq_none (by omega)]

/-- One more cell is copied, and what it is copied from was not written to. -/
theorem Copied.step (copied : Copied old start target low high cells) {low' high' : Nat}
    (unread : start + offset < target + low ∨ target + high ≤ start + offset)
    (joined : ∀ i, low' ≤ i ∧ i < high' ↔ (low ≤ i ∧ i < high) ∨ i = offset) :
    Copied old start target low' high' (copyCell cells (start + offset) (target + offset)) := by
  have source := copied.get_unread unread
  unfold copyCell
  rw [source]
  cases found : old[start + offset]? with
  | none =>
    refine ⟨copied.size, fun k inside => ?_⟩
    have outside := Array.getElem?_eq_none_iff.mp found
    have same := joined (k - target)
    have here := joined offset
    rw [copied.get k inside]
    -- Only the cell at this offset could tell the two stretches apart, and it has no source.
    refine ite_congr (propext ?_) (fun _ => rfl) fun _ => rfl
    omega
  | some value =>
    refine ⟨by rw [Array.size_setIfInBounds, copied.size], fun k inside => ?_⟩
    obtain ⟨present, -⟩ := Array.getElem?_eq_some_iff.mp found
    have size := copied.size
    rw [Array.getElem?_setIfInBounds, copied.get k inside]
    by_cases here : target + offset = k
    · have place : start + (k - target) = start + offset := by omega
      have now := (joined offset).mpr (.inr rfl)
      rw [if_pos here, if_pos (by omega), if_pos (by omega), place, found]
    · have same := joined (k - target)
      rw [if_neg here]
      refine ite_congr (propext ?_) (fun _ => rfl) fun _ => rfl
      omega

theorem copied_copyUp (cells : Array α) (front : target < start) (size : Nat) :
    Copied cells start target 0 size (copyUp cells start size target) := by
  unfold copyUp
  induction size with
  | zero => exact copied_none cells start target 0
  | succ size ih =>
    rw [Nat.fold_succ]
    exact ih.step (by omega) (by omega)

theorem copied_copyDown (cells : Array α) (behind : start ≤ target) (size : Nat) :
    Copied cells start target 0 size (copyDown cells start size target) := by
  -- What is left to copy are the cells in front, none of which lies where one was copied to.
  have rest (left : Nat) : ∀ {now : Array α}, left ≤ size →
      Copied cells start target left size now →
      Copied cells start target 0 size
        (Nat.foldRev left (fun offset _ now => copyCell now (start + offset) (target + offset))
          now) := by
    induction left with
    | zero =>
      intro now _ copied
      exact copied
    | succ left ih =>
      intro now less copied
      rw [Nat.foldRev_succ]
      exact ih (by omega) (copied.step (by omega) (by omega))
  exact rest size (Nat.le_refl size) (copied_none cells start target size)

theorem copied_moveWithin (cells : Array α) (start size target : Nat) :
    Copied cells start target 0 size (moveWithin cells start size target) := by
  unfold moveWithin
  split
  · rename_i front
    exact copied_copyUp cells front size
  · rename_i behind
    exact copied_copyDown cells (Nat.le_of_not_lt behind) size

@[simp] theorem size_moveWithin (cells : Array α) (start size target : Nat) :
    (moveWithin cells start size target).size = cells.size :=
  (copied_moveWithin cells start size target).size

/-- Moving in place is writing over the target what was at the source before. -/
theorem moveWithin_eq (cells : Array α) (start size target : Nat) :
    moveWithin cells start size target =
      overwrite cells target (cells.extract start (start + size)) := by
  have copied := copied_moveWithin cells start size target
  apply Array.ext_getElem?
  intro k
  rw [getElem?_overwrite, Array.size_extract]
  by_cases inside : k < cells.size
  · rw [copied.get k inside]
    refine ite_congr (propext ?_) (fun written => ?_) fun _ => rfl
    · omega
    · rw [Array.getElem?_extract, if_pos (by omega)]
  · have size := copied.size
    rw [if_neg (by omega), Array.getElem?_eq_none (by omega), Array.getElem?_eq_none (by omega)]

end PooledBuffers.Storage
