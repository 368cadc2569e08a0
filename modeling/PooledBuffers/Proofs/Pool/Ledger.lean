import PooledBuffers.Pool.Basic

/-!
# Pools and their users

A pool serves many users, so that each of them meets it in a state that the others left. The
ledger below runs a pool together with all leases that are out:

* `Lease.Fits`, `Pool.Sound` — an array of a class has the class's length, out or idle;
* `Pool.rent_fits`, `Pool.le_size_rent` — what a sound pool lends is long enough;
* `Pool.Sound.rent`, `Pool.Sound.giveBack`, `Pool.sound_trim` — no operation makes a pool unsound;
* `Pool.Reachable.sound` — so a pool is sound after any history of its users.
-/

namespace PooledBuffers

variable {α : Type}

/-! ## Size classes -/

namespace Pool

theorem classLength_eq (index : Nat) : classLength index = 16 * Nat.pow 2 index :=
  Nat.shiftLeft_eq minArrayLength index

/-- The arrays of the class chosen for a request are long enough for it. -/
theorem le_classLength_sizeClass (length : Nat) :
    length ≤ classLength (sizeClass length) := by
  have least : 16 ≤ max length minArrayLength := Nat.le_max_right _ _
  have bits : 4 ≤ (max length minArrayLength - 1).log2 + 1 := by
    have : 3 ≤ (max length minArrayLength - 1).log2 :=
      (Nat.le_log2 (by omega)).2 (by omega)
    omega
  have split : (max length minArrayLength - 1).log2 + 1 = sizeClass length + 4 := by
    unfold sizeClass
    omega
  have below := @Nat.lt_log2_self (max length minArrayLength - 1)
  rw [split, Nat.pow_add] at below
  have above : length ≤ max length minArrayLength := Nat.le_max_left _ _
  rw [classLength_eq]
  show length ≤ 16 * 2 ^ sizeClass length
  omega

end Pool

/-! ## Sound pools -/

/-- An array that belongs to a class has the length of the class. -/
def Lease.Fits (lease : Lease α) : Prop :=
  ∀ index, lease.bucket = some index → lease.cells.size = Pool.classLength index

theorem Lease.fits_empty : (Lease.empty : Lease α).Fits := by
  intro index h
  cases h

/-- A lease stays as it should be when its cells are replaced by as many others. -/
theorem Lease.Fits.with_cells {lease : Lease α} (fits : lease.Fits) {cells : Array α}
    (h : cells.size = lease.cells.size) : ({ lease with cells := cells } : Lease α).Fits := by
  intro index belongs
  rw [← fits index belongs]
  exact h

namespace Pool

/-- Every idle array has the length of its class. -/
def Sound (pool : Pool α) : Prop :=
  ∀ index, ∀ cells ∈ pool.bucket index, cells.size = classLength index

@[simp] theorem bucket_ofValid (config : Config) (valid : config.validate = .ok ())
    (index : Nat) : (ofValid config valid : Pool α).bucket index = [] := by
  simp only [bucket, ofValid, Array.getD_eq_getD_getElem?, Array.getElem?_replicate]
  split <;> rfl

theorem mem_bucket_updateBucket {pool : Pool α} {place index : Nat}
    {f : List (Array α) → List (Array α)} {cells : Array α}
    (h : cells ∈ (pool.updateBucket place f).bucket index) :
    cells ∈ pool.bucket index ∨ (index = place ∧ cells ∈ f (pool.bucket place)) := by
  simp only [bucket, updateBucket, Array.getD_eq_getD_getElem?, Array.getElem?_modify] at h ⊢
  by_cases same : place = index
  · subst same
    cases idle : pool.idle[place]? with
    | none => simp [idle] at h
    | some arrays =>
      rw [idle] at h
      exact .inr ⟨rfl, by simpa using h⟩
  · rw [if_neg same] at h
    exact .inl h

theorem sound_ofValid (config : Config) (valid : config.validate = .ok ()) :
    (ofValid config valid : Pool α).Sound := by
  intro index cells h
  simp at h

theorem Sound.countRent {pool : Pool α} (sound : pool.Sound) (reused : Bool) :
    (pool.countRent reused).Sound := sound

theorem Sound.countReturn {pool : Pool α} (sound : pool.Sound) (kept : Bool) :
    (pool.countReturn kept).Sound := sound

theorem Sound.updateBucket {pool : Pool α} (sound : pool.Sound) {place : Nat}
    {f : List (Array α) → List (Array α)}
    (h : ∀ cells ∈ f (pool.bucket place), cells.size = classLength place) :
    (pool.updateBucket place f).Sound := by
  intro index cells member
  rcases mem_bucket_updateBucket member with old | ⟨rfl, new⟩
  · exact sound index cells old
  · exact h cells new

theorem Sound.rent [Element α] {pool : Pool α} (sound : pool.Sound) (length : Nat) :
    (pool.rent length).2.Sound := by
  unfold Pool.rent
  split
  · exact sound
  · split
    · exact sound.countRent false
    · rename_i place _
      split
      · refine Sound.countRent (sound.updateBucket fun cells member => ?_) true
        exact sound place cells (List.mem_of_mem_tail member)
      · exact sound.countRent false

theorem rent_fits [Element α] {pool : Pool α} (sound : pool.Sound) (length : Nat) :
    (pool.rent length).1.Fits := by
  unfold Pool.rent
  split
  · exact Lease.fits_empty
  · split
    · intro index belongs
      cases belongs
    · rename_i place _
      split
      · rename_i cells rest idle
        intro index belongs
        cases belongs
        exact sound place cells (by simp [idle])
      · intro index belongs
        cases belongs
        simp

/-- A sound pool lends at least as many cells as it was asked for. -/
theorem le_size_rent [Element α] {pool : Pool α} (sound : pool.Sound) (length : Nat) :
    length ≤ (pool.rent length).1.cells.size := by
  unfold Pool.rent
  split
  · omega
  · split
    · simp
    · rename_i place chosen
      have fits : length ≤ classLength place := by
        unfold Config.classFor at chosen
        split at chosen
        · cases chosen
        · cases chosen
          exact le_classLength_sizeClass length
      split
      · rename_i cells rest idle
        rw [sound place cells (by simp [idle])]
        exact fits
      · simpa using fits

theorem Sound.giveBack [Element α] {pool : Pool α} (sound : pool.Sound) {lease : Lease α}
    (fits : lease.Fits) : (pool.giveBack lease).Sound := by
  unfold Pool.giveBack
  split
  · split
    · exact sound
    · exact sound.countReturn false
  · rename_i place belongs
    split
    · refine Sound.countReturn (sound.updateBucket fun cells member => ?_) true
      rcases List.mem_cons.mp member with rfl | old
      · have size := fits place belongs
        split
        · simpa using size
        · exact size
      · exact sound place cells old
    · exact sound.countReturn false

theorem sound_trim (pool : Pool α) : pool.trim.2.Sound := by
  intro index cells member
  simp only [Pool.trim, bucket, Array.getD_eq_getD_getElem?, Array.getElem?_map] at member
  cases idle : pool.idle[index]? with
  | none => simp [idle] at member
  | some arrays => simp [idle] at member

end Pool

/-! ## Runs of a pool and its users -/

/-- A pool, the leases that are out, and how many arrays were let go by trims. -/
structure Ledger (α : Type) where
  pool : Pool α
  live : List (Lease α) := []
  trimmed : Nat := 0

namespace Ledger

/-- What the users of a pool do. Leases are named by their place among those that are out. -/
inductive Event (α : Type) where
  | rent (length : Nat)
  /-- A user writes over the start of its array. -/
  | write (place : Nat) (run : Array α)
  | giveBack (place : Nat)
  | trim

variable [Element α]

/-- Carries out one event; a place where no lease is does nothing. -/
def step (ledger : Ledger α) : Event α → Ledger α
  | .rent length =>
    let (lease, pool) := ledger.pool.rent length
    { ledger with pool := pool, live := lease :: ledger.live }
  | .write place run =>
    { ledger with
      live := ledger.live.modify place fun lease =>
        { lease with cells := Storage.overwrite lease.cells 0 run } }
  | .giveBack place =>
    match ledger.live[place]? with
    | some lease =>
      { ledger with
        pool := ledger.pool.giveBack lease
        live := ledger.live.eraseIdx place }
    | none => ledger
  | .trim =>
    let (count, pool) := ledger.pool.trim
    { ledger with pool := pool, trimmed := ledger.trimmed + count }

/-- A pool with a configuration known to be usable, and nothing out. -/
def fresh (config : Pool.Config) (valid : config.validate = .ok ()) : Ledger α :=
  { pool := Pool.ofValid config valid }

/-- Carries out events in order. -/
def run (ledger : Ledger α) (events : List (Event α)) : Ledger α :=
  events.foldl step ledger

/-- The pool is sound, and so is every lease that is out. -/
def Sound (ledger : Ledger α) : Prop :=
  ledger.pool.Sound ∧ ∀ lease ∈ ledger.live, lease.Fits

theorem Sound.step {ledger : Ledger α} (sound : ledger.Sound) (event : Event α) :
    (ledger.step event).Sound := by
  obtain ⟨pool, live⟩ := sound
  cases event with
  | rent length =>
    refine ⟨pool.rent length, fun lease member => ?_⟩
    rcases List.mem_cons.mp member with rfl | old
    · exact Pool.rent_fits pool length
    · exact live lease old
  | write place run =>
    refine ⟨pool, fun lease member => ?_⟩
    obtain ⟨i, inside, rfl⟩ := List.mem_iff_getElem.mp member
    simp only [Ledger.step, List.length_modify] at inside
    have fits := live _ (List.getElem_mem inside)
    simp only [Ledger.step, List.getElem_modify]
    split
    · exact fits.with_cells (Storage.size_overwrite _ _ _)
    · exact fits
  | giveBack place =>
    simp only [Ledger.step]
    split
    · rename_i lease found
      exact ⟨pool.giveBack (live lease (List.mem_of_getElem? found)),
        fun other member => live other (List.mem_of_mem_eraseIdx member)⟩
    · exact ⟨pool, live⟩
  | trim => exact ⟨Pool.sound_trim _, live⟩

theorem Sound.run {ledger : Ledger α} (sound : ledger.Sound) (events : List (Event α)) :
    (ledger.run events).Sound := by
  induction events generalizing ledger with
  | nil => exact sound
  | cons event rest ih => exact ih (sound.step event)

end Ledger

/-- The states in which the users of a pool can leave it. -/
def Pool.Reachable [Element α] (pool : Pool α) : Prop :=
  ∃ config, ∃ valid : Config.validate config = .ok (), ∃ events,
    ((Ledger.fresh config valid : Ledger α).run events).pool = pool

theorem Pool.Reachable.sound [Element α] {pool : Pool α} (reachable : pool.Reachable) :
    pool.Sound := by
  obtain ⟨config, valid, events, rfl⟩ := reachable
  have start : (Ledger.fresh config valid : Ledger α).Sound :=
    ⟨Pool.sound_ofValid config valid, by simp [Ledger.fresh]⟩
  exact (start.run events).1

theorem Pool.reachable_standard [Element α] : (Pool.standard : Pool α).Reachable :=
  ⟨{}, rfl, [], rfl⟩

end PooledBuffers
