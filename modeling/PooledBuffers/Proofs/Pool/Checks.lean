import PooledBuffers.Block
import PooledBuffers.Proofs.Bounds
import PooledBuffers.Proofs.Pool.Classes
import PooledBuffers.Proofs.Pool.Requests

/-!
# Bounds that a pool relies on

A request and a return both look up the idle arrays of a class, which has to be one of the pool's,
and who asks for some cells writes to as many. A pool that has lent what somebody holds keeps to
these bounds, whatever the holder does next. The length of a request is not bounded: allocation is
taken to succeed.

* `Pool.Backs` — a pool to which something that is held can go back;
* `Pool.Backs.rent`, `Pool.Backs.giveBack`, `Block.backs_rent`, `Block.backs_dispose` — it stays
  one;
* `Pool.Backs.checkRent_eq_ok`, `Pool.Backs.checkReturn_eq_ok` — and keeps to its bounds.
-/

namespace PooledBuffers

variable {α : Type}

namespace Pool

/-- A pool to which what is held can go back, if anything is: the array is as long as those of its
class, which is there. -/
structure Backs (pool : Pool α) (held : Option (Lease α)) : Prop where
  sound : pool.Sound
  small : pool.config.maxArrayLength ≤ Size.top
  fits : ∀ lease ∈ held, lease.Fits
  inside : ∀ lease ∈ held, ∀ index, lease.bucket = some index → index < pool.config.bucketCount

variable {pool : Pool α} {held other : Option (Lease α)} {lease : Lease α}

theorem Backs.nothing (backs : pool.Backs held) : pool.Backs none :=
  ⟨backs.sound, backs.small, nofun, nofun⟩

theorem Backs.with_cells (backs : pool.Backs (some lease)) {cells : Array α}
    (same : cells.size = lease.cells.size) : pool.Backs (some { lease with cells := cells }) := by
  refine ⟨backs.sound, backs.small, ?_, ?_⟩
  · rintro _ ⟨⟩
    exact (backs.fits lease rfl).with_cells same
  · rintro _ ⟨⟩
    exact backs.inside lease rfl

/-! ## Requests and returns -/

variable [Element α]

/-- What is held can still go back after another request. -/
theorem Backs.still (backs : pool.Backs held) (length : Nat) :
    (pool.rent length).2.Backs held := by
  have config : (pool.rent length).2.config = pool.config := config_rent rfl
  refine ⟨backs.sound.rent length, ?_, backs.fits, ?_⟩
  · rw [config]
    exact backs.small
  · rw [config]
    exact backs.inside

/-- What a request is given can go back. -/
theorem Backs.rent (backs : pool.Backs held) (length : Nat) :
    (pool.rent length).2.Backs (some (pool.rent length).1) := by
  have config : (pool.rent length).2.config = pool.config := config_rent rfl
  refine ⟨backs.sound.rent length, (backs.still length).small, ?_, ?_⟩
  · rintro _ ⟨⟩
    exact rent_fits backs.sound length
  · rintro _ ⟨⟩ index belongs
    rw [config]
    exact Config.classFor_lt pool.valid backs.small (bucket_of_rent rfl belongs)

/-- What else is held can go back after one return. -/
theorem Backs.giveBack (backs : pool.Backs (some lease)) (others : pool.Backs other) :
    (pool.giveBack lease).Backs other := by
  have fits := backs.fits lease rfl
  have config := config_giveBack pool fits
  refine ⟨backs.sound.giveBack fits, ?_, others.fits, ?_⟩
  · rw [config]
    exact others.small
  · rw [config]
    exact others.inside

/-! ## Checks -/

/-- The class of a request is there, and its array is as long as was asked for. -/
def checkRent (pool : Pool α) (length : Nat) : Except Overrun Unit := do
  if 0 < length then
    if let some index := pool.config.classFor length then demand (index + 1) pool.idle.size
  demand length (pool.rent length).1.cells.size

omit [Element α] in
/-- The class of what comes back is there. -/
def checkReturn (pool : Pool α) (held : Option (Lease α)) : Except Overrun Unit :=
  match held.bind Lease.bucket with
  | some index => demand (index + 1) pool.idle.size
  | none => .ok ()

theorem Backs.checkRent_eq_ok (backs : pool.Backs held) (length : Nat) :
    pool.checkRent length = .ok () := by
  have enough := demand_eq_ok (le_size_rent backs.sound length)
  unfold checkRent
  split
  · split
    · rename_i index chosen
      have there : index + 1 ≤ pool.idle.size := by
        rw [pool.idle_size]
        exact Config.classFor_lt pool.valid backs.small chosen
      rw [check_bind (demand_eq_ok there)]
      exact enough
    · exact enough
  · exact enough

omit [Element α] in
theorem Backs.checkReturn_eq_ok (backs : pool.Backs held) : pool.checkReturn held = .ok () := by
  unfold checkReturn
  split
  · rename_i index belongs
    obtain ⟨lease, here, belongs⟩ := Option.bind_eq_some_iff.1 belongs
    refine demand_eq_ok ?_
    rw [pool.idle_size]
    exact backs.inside lease here index belongs
  · rfl

end Pool

/-! ## Blocks -/

namespace Block

variable {pool : Pool α} {held : Option (Lease α)}

theorem backs_edit {block : Block α} (backs : pool.Backs block.lease) {f : Array α → Array α}
    (same : ∀ cells, (f cells).size = cells.size) : pool.Backs (block.edit f).lease := by
  obtain ⟨lease, length⟩ := block
  cases lease with
  | none => exact backs
  | some lease => exact backs.with_cells (same lease.cells)

variable [Element α]

theorem backs_rent (backs : pool.Backs held) (length : Nat) (cleared : Bool) :
    (Block.rent pool length cleared).2.Backs (Block.rent pool length cleared).1.lease := by
  cases cleared with
  | false => exact backs.rent length
  | true => exact (backs.rent length).with_cells (Storage.size_blankFirst _ _)

theorem length_le_rent (sound : pool.Sound) (length : Nat) (cleared : Bool) :
    length ≤ (Block.rent pool length cleared).1.physical.size := by
  have enough := Pool.le_size_rent sound length
  cases cleared with
  | false => exact enough
  | true => exact Nat.le_trans enough (Nat.le_of_eq (Storage.size_blankFirst _ _).symm)

/-- A block goes back, and what else is held still can. -/
theorem backs_dispose {block : Block α} (backs : pool.Backs block.lease)
    (others : pool.Backs held) : (block.dispose pool).2.Backs held := by
  obtain ⟨lease, length⟩ := block
  cases lease with
  | none => exact others
  | some lease => exact backs.giveBack others

end Block

end PooledBuffers
