import PooledBuffers.Memory.Action
import PooledBuffers.Proofs.Leftovers.Memory

/-!
# Blocks and spans without leftovers

Two blocks are alike as far as their arrays agree. How far that is depends on their user: a block
that is blanked shows blanks up to the length it was rented for, one that is not shows nothing of
its array until something is written.

* `Block.Alike`, `Span.Alike` — blocks and spans on arrays that agree;
* `Block.alike_rent`, `Block.alike_rent_blank` — what is rented from pools that are alike;
* `Block.Alike.perform`, `Span.Alike.perform` — the same answers, and still alike.
-/

namespace PooledBuffers

open Storage (Agree Respects)

variable {α : Type}

/-! ## Blocks -/

/-- Blocks of one length whose arrays agree in their first `shown` cells. -/
structure Block.Alike (shown : Nat) (block other : Block α) : Prop where
  length : block.length = other.length
  lease : Option.Rel (Lease.Alike shown) block.lease other.lease

namespace Block

variable {shown after : Nat} {block other : Block α} {pool pool' : Pool α}

namespace Alike

theorem physical (alike : block.Alike shown other) : Agree shown block.physical other.physical := by
  obtain ⟨lease, length⟩ := block
  obtain ⟨lease', length'⟩ := other
  obtain ⟨-, leases⟩ := alike
  cases leases with
  | none => exact .refl shown #[]
  | some leases => exact leases.cells

theorem capacity (alike : block.Alike shown other) : block.capacity = other.capacity :=
  alike.physical.size

theorem isDisposed (alike : block.Alike shown other) : block.isDisposed = other.isDisposed := by
  obtain ⟨lease, length⟩ := block
  obtain ⟨lease', length'⟩ := other
  obtain ⟨-, leases⟩ := alike
  cases leases with
  | none => rfl
  | some leases => rfl

theorem slice (alike : block.Alike shown other) {stop : Nat}
    (inside : min stop block.length ≤ shown) (start : Nat) :
    block.slice start stop = other.slice start stop := by
  rw [Block.slice, Block.slice, ← alike.length]
  exact alike.physical.extract inside start

theorem cells (alike : block.Alike shown other) (inside : block.length ≤ shown) :
    block.cells = other.cells := by
  rw [Block.cells, Block.cells, ← alike.length]
  exact alike.physical.extract inside 0

theorem edit (alike : block.Alike shown other) {f g : Array α → Array α}
    (respects : Respects shown after f g) : (block.edit f).Alike after (other.edit g) := by
  obtain ⟨lease, length⟩ := block
  obtain ⟨lease', length'⟩ := other
  obtain ⟨same, leases⟩ := alike
  cases leases with
  | none => exact ⟨same, .none⟩
  | some leases =>
    obtain ⟨agree, size⟩ := respects _ _ leases.cells
    exact ⟨same, .some ⟨leases.bucket, agree, leases.fits.with_cells size⟩⟩

theorem mono (alike : block.Alike shown other) (fewer : after ≤ shown) :
    block.Alike after other := by
  obtain ⟨lease, length⟩ := block
  obtain ⟨lease', length'⟩ := other
  obtain ⟨same, leases⟩ := alike
  refine ⟨same, ?_⟩
  cases leases with
  | none => exact .none
  | some leases => exact .some ⟨leases.bucket, leases.cells.mono fewer, leases.fits⟩

/-- Both blocks may be given another length. -/
theorem with_length (alike : block.Alike shown other) (length : Nat) :
    ({ block with length := length } : Block α).Alike shown { other with length := length } :=
  ⟨rfl, alike.lease⟩

theorem fill (alike : block.Alike shown other) (value : α) :
    (block.fill value).Alike shown (other.fill value) := by
  rw [Block.fill, Block.fill, ← alike.length]
  exact alike.edit (Storage.respects_overwrite rfl _)

end Alike

/-! ## Renting and giving back -/

variable [Element α]

/-- Nothing is known of a block that is not blanked. -/
theorem alike_rent (pools : pool.Alike pool') (length : Nat) :
    OnAlike (Block.Alike 0) (Block.rent pool length false) (Block.rent pool' length false) :=
  ⟨⟨rfl, .some (pools.rent length).object⟩, (pools.rent length).pool⟩

theorem alike_rent_blank (pools : pool.Alike pool') (length : Nat) :
    OnAlike (Block.Alike length) (Block.rent pool length true) (Block.rent pool' length true) := by
  obtain ⟨leases, after⟩ := pools.rent length
  have blanks := Storage.respects_extend length rfl (Nat.le_refl 0)
    (Storage.blank (α := α) length) (by rw [Storage.size_blank]; omega)
  obtain ⟨agree, size⟩ := blanks _ _ leases.cells
  exact ⟨⟨rfl, .some ⟨leases.bucket, agree, leases.fits.with_cells size⟩⟩, after⟩

theorem Alike.dispose (alike : block.Alike shown other) (pools : pool.Alike pool') (after : Nat) :
    OnAlike (Block.Alike after) (block.dispose pool) (other.dispose pool') := by
  obtain ⟨lease, length⟩ := block
  obtain ⟨lease', length'⟩ := other
  obtain ⟨-, leases⟩ := alike
  cases leases with
  | none => exact ⟨⟨rfl, .none⟩, pools⟩
  | some leases => exact ⟨⟨rfl, .none⟩, pools.giveBack leases⟩

theorem length_dispose (block : Block α) (pool : Pool α) : (block.dispose pool).1.length = 0 := by
  obtain ⟨lease, length⟩ := block
  cases lease with
  | none => rfl
  | some lease => rfl

/-! ## Operations -/

/-- Blocks that were blanked up to `granted` cells, and show no more than those. -/
structure Granted (granted : Nat) (block other : Block α) : Prop where
  alike : block.Alike granted other
  length_le : block.length ≤ granted

/-- The one operation that could show what is behind the cells blanked. -/
def Action.Within (granted : Nat) : Action α → Prop
  | .resize length => length ≤ granted
  | _ => True

theorem Granted.perform {granted : Nat} (blocks : block.Granted granted other)
    (pools : pool.Alike pool') {action : Action α} (within : action.Within granted) :
    SameAnswer (Granted granted) (block.perform pool action) (other.perform pool' action) := by
  obtain ⟨alike, length_le⟩ := blocks
  have unchanged : OnAlike (Granted granted) (block, pool) (other, pool') :=
    ⟨⟨alike, length_le⟩, pools⟩
  have stored (index : Nat) (value : α) : OnAlike (Granted granted)
      (block.edit (·.setIfInBounds index value), pool)
      (other.edit (·.setIfInBounds index value), pool') :=
    ⟨⟨alike.edit (Storage.respects_set rfl value), by simpa using length_le⟩, pools⟩
  cases action with
  | resize length =>
    simp only [Block.perform, resize?, ← alike.capacity]
    by_cases short : block.capacity < length
    · simp only [if_pos short]
      exact ⟨rfl, unchanged⟩
    · simp only [if_neg short]
      exact ⟨rfl, ⟨alike.with_length length, within⟩, pools⟩
  | set index value =>
    simp only [Block.perform, set?, ← alike.length]
    by_cases inside : index < block.length
    · simp only [if_pos inside]
      exact ⟨rfl, stored index value⟩
    · simp only [if_neg inside]
      exact ⟨rfl, unchanged⟩
  | fill value =>
    refine ⟨rfl, ⟨alike.fill value, ?_⟩, pools⟩
    exact Nat.le_trans (Nat.le_of_eq (length_edit _ _)) length_le
  | get index =>
    simp only [Block.perform, ← alike.cells length_le, ← alike.length]
    split
    · exact ⟨rfl, unchanged⟩
    · exact ⟨rfl, unchanged⟩
  | store index value =>
    simp only [Block.perform, set?, ← alike.length]
    by_cases inside : index < block.length
    · simp only [if_pos inside]
      exact ⟨rfl, stored index value⟩
    · simp only [if_neg inside]
      exact ⟨rfl, unchanged⟩
  | read => exact ⟨congrArg Reply.run (alike.cells length_le), unchanged⟩
  | dispose =>
    obtain ⟨blocks, after⟩ := alike.dispose pools granted
    refine ⟨rfl, ⟨blocks, ?_⟩, after⟩
    show (block.dispose pool).1.length ≤ granted
    rw [length_dispose]
    exact Nat.zero_le _

end Block

/-! ## Spans -/

/-- Spans from the same place: on equal memory of the caller, or on blocks that agree in all that
they show. -/
inductive Span.Alike : Span α → Span α → Prop
  | borrowed (cells : Array α) : Alike (.borrowed cells) (.borrowed cells)
  | rented {block other : Block α} (blocks : block.Alike block.length other) :
    Alike (.rented block) (.rented other)
  | released (caller : Option (Array α)) : Alike (.released caller) (.released caller)

namespace Span

variable {span other : Span α} {pool pool' : Pool α}

namespace Alike

theorem cells (alike : span.Alike other) : span.cells = other.cells := by
  cases alike with
  | borrowed cells => rfl
  | rented blocks => exact blocks.cells (Nat.le_refl _)
  | released caller => rfl

theorem length (alike : span.Alike other) : span.length = other.length := by
  cases alike with
  | borrowed cells => rfl
  | rented blocks => exact blocks.length
  | released caller => rfl

theorem slice (alike : span.Alike other) (start stop : Nat) :
    span.slice start stop = other.slice start stop := by
  cases alike with
  | borrowed cells => rfl
  | rented blocks => exact blocks.slice (Nat.min_le_right _ _) start
  | released caller => rfl

theorem caller (alike : span.Alike other) : span.caller = other.caller := by
  cases alike with
  | borrowed cells => rfl
  | rented blocks => rfl
  | released caller => rfl

theorem originWord (alike : span.Alike other) : span.originWord = other.originWord := by
  cases alike with
  | borrowed cells => rfl
  | rented blocks => rfl
  | released caller => rfl

theorem edit (alike : span.Alike other) {f g : Array α → Array α}
    (respects : Respects span.length span.length f g) : (span.edit f).Alike (other.edit g) := by
  cases alike with
  | borrowed cells =>
    obtain ⟨agree, size⟩ := respects _ _ (.refl _ cells)
    have same : f cells = g cells := agree.eq (Nat.le_of_eq size)
    simp only [Span.edit, same]
    exact .borrowed (g cells)
  | rented blocks =>
    refine .rented ?_
    rw [Block.length_edit]
    exact blocks.edit respects
  | released caller => exact .released caller

theorem fill (alike : span.Alike other) (value : α) :
    (span.fill value).Alike (other.fill value) := by
  rw [Span.fill, Span.fill, ← alike.length]
  exact alike.edit (Storage.respects_overwrite rfl _)

end Alike

variable [Element α]

theorem alike_rent (pools : pool.Alike pool') (length : Nat) :
    OnAlike Alike (Span.rent pool length) (Span.rent pool' length) :=
  ⟨.rented (Block.alike_rent_blank pools length).object, (Block.alike_rent_blank pools length).pool⟩

theorem Alike.dispose (alike : span.Alike other) (pools : pool.Alike pool') :
    OnAlike Alike (span.dispose pool) (other.dispose pool') := by
  cases alike with
  | borrowed cells => exact ⟨.released _, pools⟩
  | rented blocks => exact ⟨.released _, (blocks.dispose pools 0).pool⟩
  | released caller => exact ⟨.released _, pools⟩

theorem Alike.perform (alike : span.Alike other) (pools : pool.Alike pool') (action : Action α) :
    SameAnswer Alike (span.perform pool action) (other.perform pool' action) := by
  have stored (index : Nat) (value : α) : OnAlike Alike
      (span.edit (·.setIfInBounds index value), pool)
      (other.edit (·.setIfInBounds index value), pool') :=
    ⟨alike.edit (Storage.respects_set rfl value), pools⟩
  cases action with
  | set index value =>
    simp only [Span.perform, set?, ← alike.length]
    by_cases inside : index < span.length
    · simp only [if_pos inside]
      exact ⟨rfl, stored index value⟩
    · simp only [if_neg inside]
      exact ⟨rfl, alike, pools⟩
  | fill value => exact ⟨rfl, alike.fill value, pools⟩
  | get index =>
    simp only [Span.perform, ← alike.cells, ← alike.length]
    split
    · exact ⟨rfl, alike, pools⟩
    · exact ⟨rfl, alike, pools⟩
  | store index value =>
    simp only [Span.perform, set?, ← alike.length]
    by_cases inside : index < span.length
    · simp only [if_pos inside]
      exact ⟨rfl, stored index value⟩
    · simp only [if_neg inside]
      exact ⟨rfl, alike, pools⟩
  | dispose => exact ⟨rfl, alike.dispose pools⟩

end Span

end PooledBuffers
