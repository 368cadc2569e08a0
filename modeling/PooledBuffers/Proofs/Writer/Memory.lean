import PooledBuffers.Proofs.Pool.Ledger
import PooledBuffers.Proofs.Tape
import PooledBuffers.Writer.Basic

/-!
# The memory of a writer

The memory of a writer as a tape: what it shows, with blanks behind. A growth leaves the tape as it
is, so that it appears in the statements about writers as nothing but a bound on the capacity.

* `Block.Fits`, `Span.Fits`, `Writer.Fits` — the array behind some memory is as long as what the
  memory shows, and belongs to its class;
* `Writer.Shows` — a writer with a given tape and cursor, and room for so many cells, on a sound
  pool: the form of every statement below;
* `Writer.Shows.grow`, `Writer.Shows.ensureFree` — growing changes neither tape nor cursor.
-/

namespace PooledBuffers

variable {α : Type}

/-! ## Arrays behind a shorter view -/

namespace Storage

/-- One cell set is a run of one cell written over. -/
theorem overwrite_singleton (cells : Array α) (place : Nat) (value : α) :
    overwrite cells place #[value] = cells.setIfInBounds place value := rfl

/-- A run as long as the array replaces all of it. -/
theorem overwrite_all {cells run : Array α} (same : run.size = cells.size) :
    overwrite cells 0 run = run := by
  apply Array.ext_getElem?
  intro i
  rw [getElem?_overwrite]
  by_cases inside : i < cells.size
  · rw [if_pos (by omega), Nat.sub_zero]
  · rw [if_neg (by omega), Array.getElem?_eq_none (by omega), Array.getElem?_eq_none (by omega)]

/-- What is shown of an array that a run is written over. -/
theorem extract_overwrite {cells : Array α} {length : Nat} (shown : length ≤ cells.size)
    (start : Nat) (run : Array α) :
    (overwrite cells start run).extract 0 length =
      overwrite (cells.extract 0 length) start run := by
  apply Array.ext_getElem?
  intro i
  rw [getElem?_overwrite, Array.getElem?_extract, Array.getElem?_extract, getElem?_overwrite,
    size_overwrite, Array.size_extract]
  simp only [Nat.zero_add, Nat.sub_zero, Nat.min_eq_left shown]
  by_cases visible : i < length
  · by_cases inside : start ≤ i ∧ i < start + run.size
    · rw [if_pos visible, if_pos (by omega), if_pos (by omega)]
    · rw [if_pos visible, if_neg (by omega), if_neg (by omega), if_pos visible]
  · rw [if_neg visible, if_neg (by omega), if_neg visible]

theorem extract_moveWithin {cells : Array α} {start size target length : Nat}
    (shown : length ≤ cells.size) (source : start + size ≤ length) :
    (moveWithin cells start size target).extract 0 length =
      moveWithin (cells.extract 0 length) start size target := by
  have same : (cells.extract 0 length).extract start (start + size) =
      cells.extract start (start + size) := by
    rw [Array.extract_extract]
    congr 1 <;> omega
  rw [moveWithin_eq, moveWithin_eq, same, extract_overwrite shown]

end Storage

/-! ## Blocks -/

namespace Block

/-- The array behind a block is as long as what the block shows. -/
def Fits (block : Block α) : Prop :=
  match block.lease with
  | some lease => block.length ≤ lease.cells.size ∧ lease.Fits
  | none => block.length = 0

theorem Fits.length_le {block : Block α} (fits : block.Fits) :
    block.length ≤ block.physical.size := by
  obtain ⟨lease, length⟩ := block
  cases lease with
  | none =>
    have nothing : length = 0 := fits
    exact Nat.le_of_eq nothing
  | some lease => exact fits.1

theorem Fits.size_cells {block : Block α} (fits : block.Fits) :
    block.cells.size = block.length := by
  have enough := fits.length_le
  rw [cells, Array.size_extract]
  omega

@[simp] theorem length_edit (block : Block α) (f : Array α → Array α) :
    (block.edit f).length = block.length := by
  obtain ⟨lease, length⟩ := block
  cases lease <;> rfl

theorem physical_edit (block : Block α) {f : Array α → Array α} (nothing : f #[] = #[]) :
    (block.edit f).physical = f block.physical := by
  obtain ⟨lease, length⟩ := block
  cases lease with
  | none => exact nothing.symm
  | some lease => rfl

theorem Fits.edit {block : Block α} (fits : block.Fits) {f : Array α → Array α}
    (h : ∀ cells, (f cells).size = cells.size) : (block.edit f).Fits := by
  obtain ⟨lease, length⟩ := block
  cases lease with
  | none => exact fits
  | some lease =>
    refine ⟨?_, fits.2.with_cells (h lease.cells)⟩
    show length ≤ (f lease.cells).size
    rw [h]
    exact fits.1

/-- An edit that keeps the length and commutes with the view is an edit of the cells shown. -/
theorem Fits.cells_edit {block : Block α} (fits : block.Fits) {f : Array α → Array α}
    (h : ∀ cells : Array α, block.length ≤ cells.size →
      (f cells).extract 0 block.length = f (cells.extract 0 block.length))
    (nothing : block.length = 0 → f #[] = #[]) :
    (block.edit f).cells = f block.cells := by
  obtain ⟨lease, length⟩ := block
  cases lease with
  | none =>
    have none_shown : length = 0 := fits
    rw [none_shown] at nothing ⊢
    exact (nothing rfl).symm
  | some lease => exact h lease.cells fits.1

variable [Element α]

theorem fits_rent {pool : Pool α} (sound : pool.Sound) (length : Nat) (cleared : Bool) :
    (Block.rent pool length cleared).1.Fits := by
  have enough := Pool.le_size_rent sound length
  have belongs := Pool.rent_fits sound length
  unfold Block.rent Fits
  cases cleared with
  | false => exact ⟨enough, belongs⟩
  | true =>
    refine ⟨?_, belongs.with_cells (Storage.size_blankFirst _ _)⟩
    simpa using enough

theorem sound_rent {pool : Pool α} (sound : pool.Sound) (length : Nat) (cleared : Bool) :
    (Block.rent pool length cleared).2.Sound :=
  sound.rent length

/-- A block that is blanked shows blanks. -/
theorem cells_rent {pool : Pool α} (sound : pool.Sound) (length : Nat) :
    (Block.rent pool length true).1.cells = Storage.blank length := by
  have enough := Pool.le_size_rent sound length
  show (Storage.overwrite (pool.rent length).1.cells 0 (Storage.blank length)).extract 0 length = _
  rw [Storage.extract_overwrite enough]
  refine Storage.overwrite_all ?_
  rw [Storage.size_blank, Array.size_extract]
  omega

theorem ofArray_cells_rent {pool : Pool α} (sound : pool.Sound) (length : Nat) :
    Tape.ofArray (Block.rent pool length true).1.cells = Tape.empty := by
  rw [cells_rent sound]
  funext i
  show (Storage.blank length)[i]?.getD Element.blank = Element.blank
  rw [Storage.blank, Array.getElem?_replicate]
  split <;> rfl

theorem Fits.sound_dispose {block : Block α} (fits : block.Fits) {pool : Pool α}
    (sound : pool.Sound) : (block.dispose pool).2.Sound := by
  unfold Fits at fits
  unfold Block.dispose
  split
  · rename_i lease held
    rw [held] at fits
    exact sound.giveBack fits.2
  · exact sound

theorem fits_dispose (block : Block α) (pool : Pool α) : (block.dispose pool).1.Fits := by
  unfold Block.dispose
  split <;> rfl

end Block

/-! ## Spans -/

namespace Span

/-- Rented memory of a span is as long as what it shows. -/
def Fits : Span α → Prop
  | borrowed _ => True
  | rented block => block.Fits
  | released _ => True

theorem Fits.size_cells {span : Span α} (fits : span.Fits) : span.cells.size = span.length := by
  cases span with
  | borrowed cells => rfl
  | rented block => exact Block.Fits.size_cells fits
  | released caller => rfl

theorem length_edit (span : Span α) {f : Array α → Array α}
    (h : ∀ cells, (f cells).size = cells.size) : (span.edit f).length = span.length := by
  cases span with
  | borrowed cells => exact h cells
  | rented block => exact Block.length_edit block f
  | released caller => rfl

theorem Fits.edit {span : Span α} (fits : span.Fits) {f : Array α → Array α}
    (h : ∀ cells, (f cells).size = cells.size) : (span.edit f).Fits := by
  cases span with
  | borrowed cells => trivial
  | rented block => exact Block.Fits.edit fits h
  | released caller => trivial

/-- An edit that commutes with every view it stays inside of is an edit of the cells shown. -/
theorem Fits.cells_edit {span : Span α} (fits : span.Fits) {f : Array α → Array α}
    (h : ∀ cells : Array α, span.length ≤ cells.size →
      (f cells).extract 0 span.length = f (cells.extract 0 span.length))
    (nothing : span.length = 0 → f #[] = #[]) : (span.edit f).cells = f span.cells := by
  cases span with
  | borrowed cells => rfl
  | rented block => exact Block.Fits.cells_edit fits h nothing
  | released caller => exact (nothing rfl).symm

/-- Two edits one after the other are one edit. -/
theorem edit_edit (span : Span α) (f g : Array α → Array α) :
    (span.edit f).edit g = span.edit fun cells => g (f cells) := by
  cases span with
  | borrowed cells => rfl
  | rented block =>
    obtain ⟨lease, length⟩ := block
    cases lease <;> rfl
  | released caller => rfl

theorem Fits.cells_overwrite {span : Span α} (fits : span.Fits) (start : Nat) (run : Array α) :
    (span.edit (Storage.overwrite · start run)).cells = Storage.overwrite span.cells start run := by
  refine fits.cells_edit (fun cells shown => Storage.extract_overwrite shown start run)
    fun nothing => ?_
  exact Array.eq_empty_of_size_eq_zero (Storage.size_overwrite #[] start run)

theorem Fits.sound_dispose [Element α] {span : Span α} (fits : span.Fits) {pool : Pool α}
    (sound : pool.Sound) : (span.dispose pool).2.Sound := by
  cases span with
  | borrowed cells => exact sound
  | rented block => exact Block.Fits.sound_dispose fits sound
  | released caller => exact sound

end Span

/-! ## Backings -/

namespace Writer

namespace Backing

/-- The memory is as long as what it shows. -/
def Fits : Backing α → Prop
  | initial span => span.Fits
  | grown block _ => block.Fits

theorem Fits.size_cells {backing : Backing α} (fits : backing.Fits) :
    backing.cells.size = backing.length := by
  cases backing with
  | initial span => exact Span.Fits.size_cells fits
  | grown block caller => exact Block.Fits.size_cells fits

@[simp] theorem length_edit (backing : Backing α) {f : Array α → Array α}
    (h : ∀ cells, (f cells).size = cells.size) : (backing.edit f).length = backing.length := by
  cases backing with
  | initial span => exact Span.length_edit span h
  | grown block caller => exact Block.length_edit block f

theorem Fits.edit {backing : Backing α} (fits : backing.Fits) {f : Array α → Array α}
    (h : ∀ cells, (f cells).size = cells.size) : (backing.edit f).Fits := by
  cases backing with
  | initial span => exact Span.Fits.edit fits h
  | grown block caller => exact Block.Fits.edit fits h

theorem Fits.cells_edit {backing : Backing α} (fits : backing.Fits) {f : Array α → Array α}
    (h : ∀ cells : Array α, backing.length ≤ cells.size →
      (f cells).extract 0 backing.length = f (cells.extract 0 backing.length))
    (nothing : backing.length = 0 → f #[] = #[]) :
    (backing.edit f).cells = f backing.cells := by
  cases backing with
  | initial span => exact Span.Fits.cells_edit fits h nothing
  | grown block caller => exact Block.Fits.cells_edit fits h nothing

theorem Fits.cells_overwrite {backing : Backing α} (fits : backing.Fits) (start : Nat)
    (run : Array α) :
    (backing.edit (Storage.overwrite · start run)).cells =
      Storage.overwrite backing.cells start run := by
  refine fits.cells_edit (fun cells shown => Storage.extract_overwrite shown start run)
    fun nothing => ?_
  exact Array.eq_empty_of_size_eq_zero (Storage.size_overwrite #[] start run)

theorem Fits.cells_moveWithin {backing : Backing α} (fits : backing.Fits)
    {start size : Nat} (source : start + size ≤ backing.length) (target : Nat) :
    (backing.edit (Storage.moveWithin · start size target)).cells =
      Storage.moveWithin backing.cells start size target := by
  refine fits.cells_edit (fun cells shown => Storage.extract_moveWithin shown source)
    fun nothing => ?_
  exact Array.eq_empty_of_size_eq_zero (Storage.size_moveWithin #[] start size target)

/-- A stretch of the memory shown is one of the cells shown. -/
theorem slice_eq_extract (backing : Backing α) {start stop : Nat} (h : stop ≤ backing.length) :
    backing.slice start stop = backing.cells.extract start stop := by
  have view (block : Block α) (inside : stop ≤ block.length) :
      block.slice start stop = block.cells.extract start stop := by
    rw [Block.slice, Block.cells, Array.extract_extract]
    congr 1 <;> omega
  cases backing with
  | initial span =>
    cases span with
    | borrowed cells => rfl
    | rented block => exact view block h
    | released caller => simp [slice, Span.slice, cells, Span.cells]
  | grown block caller => exact view block h

theorem Fits.sound_dispose [Element α] {backing : Backing α} (fits : backing.Fits)
    {pool : Pool α} (sound : pool.Sound) : (backing.dispose pool).2.Sound := by
  cases backing with
  | initial span => exact Span.Fits.sound_dispose fits sound
  | grown block caller => exact Block.Fits.sound_dispose fits sound

theorem fits_dispose [Element α] (backing : Backing α) (pool : Pool α) :
    (backing.dispose pool).1.Fits := by
  cases backing with
  | initial span => cases span <;> trivial
  | grown block caller => exact Block.fits_dispose block pool

/-- Memory given back shows nothing. -/
theorem cells_dispose [Element α] (backing : Backing α) (pool : Pool α) :
    (backing.dispose pool).1.cells = #[] := by
  cases backing with
  | initial span => cases span <;> rfl
  | grown block caller =>
    obtain ⟨lease, length⟩ := block
    cases lease <;> rfl

end Backing

/-! ## Writers and their tapes -/

/-- The memory of a writer is as long as what it shows. -/
def Fits (writer : Writer α) : Prop := writer.backing.Fits

theorem Fits.size_cells {writer : Writer α} (fits : writer.Fits) :
    writer.cells.size = writer.capacity :=
  Backing.Fits.size_cells fits

variable [Element α]

/-- The memory of a writer as a tape, blank behind its end. -/
def tape (writer : Writer α) : Tape α := Tape.ofArray writer.cells

/-- What a writer has in memory is the start of its tape. -/
theorem Fits.cells_eq {writer : Writer α} (fits : writer.Fits) :
    writer.cells = writer.tape.stretch 0 writer.capacity := by
  rw [← fits.size_cells]
  exact Tape.eq_stretch_ofArray

/-- A stretch in memory is one of the tape. -/
theorem Fits.slice_eq {writer : Writer α} (fits : writer.Fits) {start count : Nat}
    (h : start + count ≤ writer.capacity) :
    writer.slice start count = writer.tape.stretch start count := by
  rw [slice, Backing.slice_eq_extract _ h]
  exact Tape.extract_eq_stretch (Nat.le_trans h (Nat.le_of_eq fits.size_cells.symm))

/-- A writer on a sound pool: it shows a tape, its cursor is at `position`, and its memory has at
least `length` cells. -/
structure Shows (state : Writer α × Pool α) (tape : Tape α) (position length : Nat) : Prop where
  fits : state.1.Fits
  sound : state.2.Sound
  tape_eq : state.1.tape = tape
  position_eq : state.1.position = position
  length_le : length ≤ state.1.capacity

variable {writer : Writer α} {pool : Pool α} {tape : Tape α} {position length : Nat}

theorem Shows.mono (shows : Shows (writer, pool) tape position length) {less : Nat}
    (h : less ≤ length) : Shows (writer, pool) tape position less :=
  { shows with length_le := Nat.le_trans h shows.length_le }

/-- The length shown can be taken to be the capacity. -/
theorem Shows.exact (shows : Shows (writer, pool) tape position length) :
    Shows (writer, pool) tape position writer.capacity :=
  { shows with length_le := Nat.le_refl _ }

theorem Shows.slice_eq (shows : Shows (writer, pool) tape position length) {start count : Nat}
    (h : start + count ≤ length) : writer.slice start count = tape.stretch start count := by
  rw [shows.fits.slice_eq (Nat.le_trans h shows.length_le), shows.tape_eq]

/-! ## Starting -/

theorem shows_onMemory (cells : Array α) (minGrow : Option Nat) (sound : pool.Sound) :
    Shows ({ onMemory cells with minGrow := minGrow }, pool) (Tape.ofArray cells) 0 cells.size :=
  ⟨trivial, sound, rfl, rfl, Nat.le_refl _⟩

theorem shows_withCapacity (sound : pool.Sound) (length : Nat) (minGrow : Option Nat) :
    Shows ({ (withCapacity pool length).1 with minGrow := minGrow }, (withCapacity pool length).2)
      Tape.empty 0 length :=
  ⟨Block.fits_rent sound length true, Block.sound_rent sound length true,
    Block.ofArray_cells_rent sound length, rfl, Nat.le_refl _⟩

/-! ## Growing -/

omit [Element α] in
/-- A growth gives what was requested, unless that is past the bound on growth. -/
theorem add_le_grownCapacity {requested : Nat}
    (small : writer.capacity + requested ≤ Size.maxCapacity) :
    writer.capacity + requested ≤ writer.grownCapacity requested := by
  have exact : Size.add writer.capacity requested = writer.capacity + requested :=
    Size.add_eq (Nat.le_trans small (by decide))
  simp only [grownCapacity, exact]
  exact Nat.le_min.2 ⟨Nat.le_max_right _ _, small⟩

/-- An array with old contents at its start and blanks behind them, up to `length`. -/
def carryOver (old : Array α) (length : Nat) (cells : Array α) : Array α :=
  Storage.overwrite (Storage.overwrite cells 0 old) old.size (Storage.blank (length - old.size))

theorem grow_eq (writer : Writer α) (requested : Nat) (pool : Pool α) :
    writer.grow requested pool =
      let length := writer.grownCapacity requested
      let rented := Block.rent pool length false
      let released := writer.backing.dispose rented.2
      ({ writer with
          backing := .grown (rented.1.edit (carryOver writer.cells length)) released.1.caller },
        released.2) := rfl

@[simp] theorem size_carryOver (old : Array α) (length : Nat) (cells : Array α) :
    (carryOver old length cells).size = cells.size := by
  simp [carryOver]

/-- The array shows the tape of the old contents, whatever was in it before. -/
theorem ofArray_carryOver {cells old : Array α} {length : Nat} (size : cells.size = length)
    (h : old.size ≤ length) : Tape.ofArray (carryOver old length cells) = Tape.ofArray old := by
  rw [carryOver, Tape.ofArray_overwrite (by simp; omega), Tape.ofArray_overwrite (by omega)]
  funext i
  -- In front there is the old contents, and from there on both tapes are blank.
  by_cases front : i < old.size
  · rw [Tape.put_apply_of_lt front, Tape.put_apply_of_mem (Nat.zero_le i) front,
      Tape.ofArray_apply front]
    rfl
  · rw [Tape.ofArray_apply_of_le (by omega)]
    by_cases behind : length ≤ i
    · rw [Tape.put_apply_of_le (by simp; omega), Tape.put_apply_of_le (by omega),
        Tape.ofArray_apply_of_le (by omega)]
    · rw [Tape.put_apply_of_mem (by omega) (by simp; omega)]
      simp [Storage.blank]

theorem Shows.grow (shows : Shows (writer, pool) tape position length) {requested : Nat}
    (small : writer.capacity + requested ≤ Size.maxCapacity) :
    Shows (writer.grow requested pool) tape position (writer.capacity + requested) := by
  have enough := add_le_grownCapacity small
  have size := shows.fits.size_cells
  have fits := Block.fits_rent shows.sound (writer.grownCapacity requested) false
  have sound := Block.sound_rent shows.sound (writer.grownCapacity requested) false
  have carried : ((Block.rent pool (writer.grownCapacity requested) false).1.edit
      (carryOver writer.cells (writer.grownCapacity requested))).cells =
      carryOver writer.cells (writer.grownCapacity requested)
        (Block.rent pool (writer.grownCapacity requested) false).1.cells := by
    -- The rented array may be longer than what is shown of it, and is written in front only.
    refine fits.cells_edit (fun cells shown => ?_) fun _ => ?_
    · rw [carryOver, carryOver, Storage.extract_overwrite (by simpa using shown),
        Storage.extract_overwrite shown]
    · exact Array.eq_empty_of_size_eq_zero (size_carryOver _ _ _)
  rw [grow_eq]
  refine ⟨fits.edit (size_carryOver _ _), shows.fits.sound_dispose sound, ?_,
    shows.position_eq, ?_⟩
  · rw [← shows.tape_eq]
    show Tape.ofArray (Block.edit _ _).cells = Tape.ofArray writer.cells
    rw [carried]
    exact ofArray_carryOver fits.size_cells (by simp only at size; omega)
  · show writer.capacity + requested ≤ (Block.edit _ _).length
    rw [Block.length_edit]
    exact enough

theorem Shows.ensureFree (shows : Shows (writer, pool) tape position length)
    (cursor : position ≤ length) {count : Nat} (small : position + count ≤ Size.maxCapacity) :
    Shows (writer.ensureFree count pool) tape position (max length (position + count)) := by
  have room := shows.length_le
  have place := shows.position_eq
  simp only at room place
  unfold Writer.ensureFree freeCapacity
  split
  · have small' : writer.capacity + (count - (writer.capacity - writer.position)) ≤
        Size.maxCapacity := by omega
    exact (shows.grow small').mono (by omega)
  · exact shows.exact.mono (by omega)

theorem Shows.ensureCapacity (shows : Shows (writer, pool) tape position length) {needed : Nat}
    (small : needed ≤ Size.maxCapacity) :
    Shows (writer.ensureCapacity needed pool) tape position (max length needed) := by
  have room := shows.length_le
  simp only at room
  unfold Writer.ensureCapacity
  split
  · have small' : writer.capacity + (needed - writer.capacity) ≤ Size.maxCapacity := by omega
    exact (shows.grow small').mono (by omega)
  · exact shows.exact.mono (by omega)

end Writer

end PooledBuffers
