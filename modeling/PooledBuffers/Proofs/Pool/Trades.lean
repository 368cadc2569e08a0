import PooledBuffers.Proofs.Pool.Requests
import PooledBuffers.Span

/-!
# Who holds what is out

Memory goes out as leases, which are kept in blocks, spans and larger objects. An operation on one
of these trades leases with the pool: whichever other leases are out, the pool accounts for those
and for the ones that the object holds, before and after.

* `Pool.Lends` — all arrays of a pool that are out are on given leases;
* `Holder` — the leases that something holds;
* `Trades` — an operation as a trade, with `Trades.trans` and `Trades.foldl` for several of them;
* `Trades.replace` — new memory comes before the old goes back;
* `Block.trades_rent`, `Block.trades_edit`, `Block.trades_dispose` and the same for spans.
-/

namespace PooledBuffers

variable {α : Type}

/-! ## Pools and leases -/

namespace Pool

/-- All arrays of a pool that are out are on these leases, each of which fits its class. -/
structure Lends (pool : Pool α) (leases : List (Lease α)) : Prop where
  sound : pool.Sound
  fits : ∀ lease ∈ leases, lease.Fits
  outstanding : pool.counters.rented = pool.counters.returned + Lease.held leases

variable {pool : Pool α} {lease : Lease α} {leases others : List (Lease α)}

theorem Lends.perm (lends : pool.Lends leases) (same : leases.Perm others) :
    pool.Lends others where
  sound := lends.sound
  fits other member := lends.fits other (same.mem_iff.2 member)
  outstanding := by
    rw [lends.outstanding]
    exact congrArg (_ + ·) (same.countP_eq _)

theorem lends_ofValid (config : Config) (valid : config.validate = .ok ()) :
    (ofValid config valid : Pool α).Lends [] where
  sound := sound_ofValid config valid
  fits lease member := by cases member
  outstanding := rfl

theorem Lends.trim (lends : pool.Lends leases) : pool.trim.2.Lends leases where
  sound := sound_trim pool
  fits := lends.fits
  outstanding := lends.outstanding

variable [Element α]

theorem Lends.rent (lends : pool.Lends leases) (length : Nat) :
    (pool.rent length).2.Lends ((pool.rent length).1 :: leases) := by
  have sound := lends.sound.rent length
  have fits := rent_fits lends.sound length
  rcases rented : pool.rent length with ⟨lease, next⟩
  rw [rented] at sound fits
  obtain ⟨out, back, -⟩ := rent_counts lends.sound rented
  refine ⟨sound, ?_, ?_⟩
  · intro other member
    rcases List.mem_cons.1 member with rfl | old
    · exact fits
    · exact lends.fits other old
  · rw [out, back, lends.outstanding, Lease.held_cons]
    exact Nat.add_assoc _ _ _

theorem Lends.giveBack (lends : pool.Lends (lease :: leases)) :
    (pool.giveBack lease).Lends leases := by
  have fits := lends.fits lease List.mem_cons_self
  obtain ⟨out, back⟩ := giveBack_counts pool fits
  refine ⟨lends.sound.giveBack fits, ?_, ?_⟩
  · intro other member
    exact lends.fits other (List.mem_cons_of_mem _ member)
  · rw [out, back, lends.outstanding, Lease.held_cons]
    omega

omit [Element α] in
/-- Its user may write over the cells of a lease. -/
theorem Lends.with_cells (lends : pool.Lends (lease :: leases)) {cells : Array α}
    (same : cells.size = lease.cells.size) :
    pool.Lends ({ lease with cells := cells } :: leases) := by
  refine ⟨lends.sound, ?_, ?_⟩
  · intro other member
    rcases List.mem_cons.1 member with rfl | old
    · exact (lends.fits lease List.mem_cons_self).with_cells same
    · exact lends.fits other (List.mem_cons_of_mem _ old)
  · have capacity : Lease.capacity { lease with cells := cells } = lease.capacity := same
    rw [lends.outstanding, Lease.held_cons, Lease.held_cons, Lease.count_congr capacity]

end Pool

/-! ## Holders -/

/-- Something that may hold leases on elements of type `α`. -/
class Holder (ω α : Type) where
  leases : ω → List (Lease α)

instance : Holder Unit α := ⟨fun _ => []⟩
instance : Holder (Lease α) α := ⟨fun lease => [lease]⟩
instance : Holder (Block α) α := ⟨fun block => block.lease.toList⟩

instance : Holder (Span α) α where
  leases
    | .rented block => Holder.leases block
    | _ => []

/-- Two holders side by side. -/
instance {ω ω' : Type} [Holder ω α] [Holder ω' α] : Holder (ω × ω') α :=
  ⟨fun both => Holder.leases both.1 ++ Holder.leases both.2⟩

/-- From one moment to the next a holder traded leases with a pool: whichever others are out, the
pool accounts for them and for those of the holder. -/
def Trades {ω ω' : Type} [Holder ω α] [Holder ω' α] (before : ω × Pool α) (after : ω' × Pool α) :
    Prop :=
  ∀ others : List (Lease α), before.2.Lends (Holder.leases before.1 ++ others) →
    after.2.Lends (Holder.leases after.1 ++ others)

namespace Trades

variable {ω ω' ω'' : Type} [Holder ω α] [Holder ω' α] [Holder ω'' α] {pool middle last : Pool α}

theorem refl (state : ω × Pool α) : Trades state state := fun _ lends => lends

theorem trans {first : ω × Pool α} {second : ω' × Pool α} {third : ω'' × Pool α}
    (before : Trades first second) (after : Trades second third) : Trades first third :=
  fun others lends => after others (before others lends)

/-- Where no other leases are out, the pool accounts for those of the holder. -/
theorem lends {old : ω} {new : ω'} (trades : Trades (old, pool) (new, last))
    (before : pool.Lends (Holder.leases old)) : last.Lends (Holder.leases new) := by
  have after := trades [] ((List.append_nil _).symm ▸ before)
  rwa [List.append_nil] at after

/-- A holder of nothing may as well not be there. -/
theorem ended {first : ω × Pool α} {old : ω'} (trades : Trades first (old, pool))
    (nothing : Holder.leases old = ([] : List (Lease α))) : Trades first ((), pool) := by
  intro others lends
  have last := trades others lends
  rw [nothing] at last
  exact last

/-- A holder trades alike with another one beside it. -/
theorem beside {old : ω} {new : ω'} (trades : Trades (old, pool) (new, last)) (other : ω'') :
    Trades ((old, other), pool) ((new, other), last) := by
  intro others lends
  have split : (Holder.leases (old, other) : List (Lease α)) ++ others =
      Holder.leases old ++ (Holder.leases other ++ others) := List.append_assoc _ _ _
  have joined : (Holder.leases (new, other) : List (Lease α)) ++ others =
      Holder.leases new ++ (Holder.leases other ++ others) := List.append_assoc _ _ _
  rw [joined]
  exact trades _ (split ▸ lends)

/-- The same leases may be held in another way. -/
theorem of_perm {old : ω} {new : ω'}
    (same : List.Perm (Holder.leases old : List (Lease α)) (Holder.leases new)) (pool : Pool α) :
    Trades (old, pool) (new, pool) :=
  fun others lends => lends.perm (same.append_right others)

theorem swap (first : ω) (second : ω') (pool : Pool α) :
    Trades ((first, second), pool) ((second, first), pool) :=
  of_perm List.perm_append_comm pool

/-- New memory is made while the old is still held, which goes back after that. -/
theorem replace {old : ω} {new : ω'} (made : Trades ((), pool) (new, middle))
    (released : Trades (old, middle) ((), last)) : Trades (old, pool) (new, last) := by
  have both : Trades (old, pool) ((new, old), middle) := made.beside old
  exact both.trans ((swap new old middle).trans (released.beside new))

/-- A loop trades if each of its rounds does; `view` shows the holder and the pool in its state. -/
theorem foldl {σ β : Type} (view : σ → ω × Pool α) {round : σ → β → σ}
    (step : ∀ state value, Trades (view state) (view (round state value))) (run : Array β)
    (state : σ) : Trades (view state) (view (run.foldl round state)) := by
  rw [← Array.foldl_toList]
  induction run.toList generalizing state with
  | nil => exact refl _
  | cons value rest ih => exact (step state value).trans (ih (round state value))

end Trades

/-! ## Leases -/

variable [Element α]

theorem Pool.trades_rent (pool : Pool α) (length : Nat) : Trades ((), pool) (pool.rent length) :=
  fun _ lends => lends.rent length

theorem Pool.trades_giveBack (pool : Pool α) (lease : Lease α) :
    Trades (lease, pool) ((), pool.giveBack lease) :=
  fun _ lends => lends.giveBack

omit [Element α] in
theorem Lease.trades_cells (lease : Lease α) (pool : Pool α) {cells : Array α}
    (same : cells.size = lease.cells.size) :
    Trades (lease, pool) ({ lease with cells := cells }, pool) :=
  fun _ lends => lends.with_cells same

/-! ## Blocks -/

namespace Block

theorem trades_rent (pool : Pool α) (length : Nat) (cleared : Bool) :
    Trades ((), pool) (Block.rent pool length cleared) := by
  have rented := pool.trades_rent length
  cases cleared with
  | false => exact rented
  | true => exact rented.trans (Lease.trades_cells _ _ (Storage.size_blankFirst _ _))

omit [Element α] in
theorem trades_edit (block : Block α) (pool : Pool α) {f : Array α → Array α}
    (same : ∀ cells, (f cells).size = cells.size) : Trades (block, pool) (block.edit f, pool) := by
  obtain ⟨lease, length⟩ := block
  cases lease with
  | none => exact .refl _
  | some lease => exact Lease.trades_cells lease pool (same lease.cells)

theorem leases_dispose (block : Block α) (pool : Pool α) :
    Holder.leases (block.dispose pool).1 = ([] : List (Lease α)) := by
  obtain ⟨lease, length⟩ := block
  cases lease with
  | none => rfl
  | some lease => rfl

theorem trades_dispose (block : Block α) (pool : Pool α) :
    Trades (block, pool) (block.dispose pool) := by
  obtain ⟨lease, length⟩ := block
  cases lease with
  | none => exact .refl _
  | some lease => exact pool.trades_giveBack lease

/-- A block without a lease has nothing to give back. -/
theorem dispose_of_nothing {block : Block α} (nothing : Holder.leases block = ([] : List (Lease α)))
    (pool : Pool α) : (block.dispose pool).2 = pool := by
  obtain ⟨lease, length⟩ := block
  cases lease with
  | none => rfl
  | some lease => cases nothing

end Block

/-! ## Spans -/

namespace Span

theorem trades_rent (pool : Pool α) (length : Nat) : Trades ((), pool) (Span.rent pool length) :=
  Block.trades_rent pool length true

omit [Element α] in
theorem trades_edit (span : Span α) (pool : Pool α) {f : Array α → Array α}
    (same : ∀ cells, (f cells).size = cells.size) : Trades (span, pool) (span.edit f, pool) := by
  cases span with
  | borrowed cells => exact .refl _
  | rented block => exact block.trades_edit pool same
  | released caller => exact .refl _

theorem leases_dispose (span : Span α) (pool : Pool α) :
    Holder.leases (span.dispose pool).1 = ([] : List (Lease α)) := by
  cases span with
  | borrowed cells => rfl
  | rented block => rfl
  | released caller => rfl

theorem trades_dispose (span : Span α) (pool : Pool α) :
    Trades (span, pool) (span.dispose pool) := by
  cases span with
  | borrowed cells => exact .refl _
  | rented block => exact (block.trades_dispose pool).ended (block.leases_dispose pool)
  | released caller => exact .refl _

theorem dispose_of_nothing {span : Span α} (nothing : Holder.leases span = ([] : List (Lease α)))
    (pool : Pool α) : (span.dispose pool).2 = pool := by
  cases span with
  | borrowed cells => rfl
  | rented block => exact Block.dispose_of_nothing nothing pool
  | released caller => rfl

end Span

end PooledBuffers
