import PooledBuffers.Proofs.Pool.Requests

/-!
# No array is lost or handed out twice

Over every run of a pool and its users the counters agree with what is there: each array that was
ever made is out, idle, thrown away or let go by a trim, and in one of these places only. A step
moves arrays from one place to another, whichever way it takes through the classes.

* `Pool.Tidy` — the classes hold no more arrays than they may, and blank ones if need be;
* `Pool.Books` — the counters add up, with so many arrays out and so many let go;
* `Ledger.Balanced`, `Ledger.Balanced.step` — both hold of a pool with its users, step by step;
* `Ledger.conserves_arrays` — so for every usable configuration and every run.
-/

namespace PooledBuffers

variable {α : Type}

/-! ## Arrays that are out -/

/-- Giving one lease back leaves the arrays on all others. -/
theorem Lease.held_eraseIdx {lease : Lease α} (leases : List (Lease α)) :
    ∀ {place : Nat}, leases[place]? = some lease →
      held leases = held (leases.eraseIdx place) + lease.count := by
  induction leases with
  | nil =>
    intro place found
    cases found
  | cons first rest ih =>
    intro place found
    cases place with
    | zero =>
      cases found
      exact held_cons _ _
    | succ place =>
      rw [List.eraseIdx_cons_succ, held_cons, held_cons, ih found]
      exact Nat.add_right_comm _ _ _

/-- Writing over the cells of a lease leaves it on as many. -/
theorem Lease.held_modify {f : Lease α → Lease α}
    (same : ∀ lease, (f lease).capacity = lease.capacity)
    (leases : List (Lease α)) : ∀ place, held (leases.modify place f) = held leases := by
  induction leases with
  | nil =>
    intro place
    rw [List.modify_nil]
  | cons lease rest ih =>
    intro place
    cases place with
    | zero => rw [List.modify_zero_cons, held_cons, held_cons, Lease.count_congr (same lease)]
    | succ place => rw [List.modify_succ_cons, held_cons, held_cons, ih]

namespace Pool

/-! ## Idle arrays -/

variable [Element α]

/-- The classes of a pool are as its configuration says. -/
structure Tidy (pool : Pool α) : Prop where
  /-- No class keeps more arrays than it may. -/
  room : ∀ index, (pool.bucket index).length ≤ pool.config.maxArraysPerBucket
  /-- A pool that blanks what comes back has only blank arrays idle. -/
  blank : pool.blanksReturns →
    ∀ index, ∀ cells ∈ pool.bucket index, cells = Storage.blank cells.size

variable {pool next : Pool α} {lease : Lease α} {length : Nat}

theorem tidy_ofValid (config : Config) (valid : config.validate = .ok ()) :
    (ofValid config valid : Pool α).Tidy where
  room index := by simp
  blank _ index cells member := by simp at member

theorem Tidy.rent (tidy : pool.Tidy) (h : pool.rent length = (lease, next)) : next.Tidy := by
  have config := config_rent h
  have left := bucket_rent h
  constructor
  · intro index
    rw [config]
    exact Nat.le_trans (left index).length_le (tidy.room index)
  · intro blanks index cells member
    rw [blanksReturns, config] at blanks
    exact tidy.blank blanks index cells ((left index).mem member)

theorem Tidy.giveBack (tidy : pool.Tidy) (fits : lease.Fits)
    (inside : ∀ index, lease.bucket = some index → index < pool.idle.size) :
    (pool.giveBack lease).Tidy := by
  have config := config_giveBack pool fits
  have laid := bucket_giveBack pool fits inside
  constructor
  · intro index
    rcases laid index with same | ⟨cells, front, free, -⟩
    · rw [same, config]
      exact tidy.room index
    · rw [front, config]
      exact free
  · intro blanks index cells member
    rw [blanksReturns, config] at blanks
    rcases laid index with same | ⟨first, front, -, blanked⟩
    · exact tidy.blank blanks index cells (same ▸ member)
    · rcases List.mem_cons.1 (front ▸ member) with rfl | old
      · exact blanked blanks
      · exact tidy.blank blanks index cells old

theorem tidy_trim (pool : Pool α) : pool.trim.2.Tidy where
  room index := by
    rw [bucket_trim]
    exact Nat.zero_le _
  blank _ index cells member := by
    rw [bucket_trim] at member
    cases member

/-! ## The counters -/

omit [Element α] in
/-- The counters of a pool add up, where `out` arrays are out and trims let `trimmed` go. -/
structure Books (pool : Pool α) (out trimmed : Nat) : Prop where
  /-- Each request was served by an array made for it or by an idle one. -/
  served : pool.counters.rented = pool.counters.allocated + pool.counters.reused
  /-- What went out is back or still out. -/
  outstanding : pool.counters.rented = pool.counters.returned + out
  discarded_le : pool.counters.discarded ≤ pool.counters.returned
  /-- Every array made is out, idle, thrown away or let go. -/
  stock : pool.counters.allocated = out + pool.idleCount + pool.counters.discarded + trimmed

variable {out trimmed : Nat}

omit [Element α] in
theorem books_ofValid (config : Config) (valid : config.validate = .ok ()) :
    (ofValid config valid : Pool α).Books 0 0 := by
  refine ⟨rfl, rfl, Nat.le_refl _, ?_⟩
  have none : (ofValid config valid : Pool α).idleCount = 0 := by
    rw [idleCount_eq, ofValid, Array.toList_replicate, List.flatten_replicate_nil]
    rfl
  rw [none]
  rfl

theorem Books.rent (books : pool.Books out trimmed) (sound : pool.Sound)
    (h : pool.rent length = (lease, next)) : next.Books (out + lease.count) trimmed := by
  obtain ⟨served, outstanding, discarded, stock⟩ := books
  obtain ⟨lent, back, away⟩ := rent_counts sound h
  obtain ⟨supply, taken⟩ := rent_stock sound h
  exact ⟨by omega, by omega, by omega, by omega⟩

theorem Books.giveBack (books : pool.Books (out + lease.count) trimmed) (fits : lease.Fits)
    (inside : ∀ index, lease.bucket = some index → index < pool.idle.size) :
    (pool.giveBack lease).Books out trimmed := by
  obtain ⟨served, outstanding, discarded, stock⟩ := books
  obtain ⟨lent, back⟩ := giveBack_counts pool fits
  obtain ⟨made, reused, away, supply⟩ := giveBack_stock pool fits inside
  exact ⟨by omega, by omega, by omega, by omega⟩

omit [Element α] in
theorem Books.trim (books : pool.Books out trimmed) :
    pool.trim.2.Books out (trimmed + pool.idleCount) := by
  obtain ⟨served, outstanding, discarded, stock⟩ := books
  refine ⟨served, outstanding, discarded, ?_⟩
  rw [idleCount_trim]
  show pool.counters.allocated = out + 0 + pool.counters.discarded + (trimmed + pool.idleCount)
  omega

end Pool

namespace Ledger

/-! ## The invariant -/

variable [Element α]

/-- A pool, the leases that are out and the counters agree. -/
structure Balanced (ledger : Ledger α) : Prop where
  sound : ledger.Sound
  /-- Every lease belongs to a class that is there, or to none. -/
  inside : ∀ lease ∈ ledger.live, ∀ index, lease.bucket = some index →
    index < ledger.pool.idle.size
  tidy : ledger.pool.Tidy
  books : ledger.pool.Books (Lease.held ledger.live) ledger.trimmed

variable {ledger : Ledger α}

theorem balanced_fresh (config : Pool.Config) (valid : config.validate = .ok ()) :
    (fresh config valid : Ledger α).Balanced where
  sound := ⟨Pool.sound_ofValid config valid, by simp [fresh]⟩
  inside lease member := by simp [fresh] at member
  tidy := Pool.tidy_ofValid config valid
  books := Pool.books_ofValid config valid

theorem Balanced.rent (balanced : ledger.Balanced)
    (small : ledger.pool.config.maxArrayLength ≤ Size.top) (length : Nat) :
    (ledger.step (.rent length)).Balanced := by
  have sound := balanced.sound.step (.rent length)
  rcases rented : ledger.pool.rent length with ⟨lease, next⟩
  simp only [Ledger.step, rented] at sound ⊢
  have books := balanced.books.rent balanced.sound.1 rented
  rw [← Lease.held_cons] at books
  refine ⟨sound, ?_, balanced.tidy.rent rented, books⟩
  intro other member index belongs
  rw [next.idle_size, Pool.config_rent rented]
  rcases List.mem_cons.1 member with rfl | old
  · -- The class was chosen from those that are there.
    exact Pool.Config.classFor_lt ledger.pool.valid small (Pool.bucket_of_rent rented belongs)
  · rw [← ledger.pool.idle_size]
    exact balanced.inside other old index belongs

theorem Balanced.write (balanced : ledger.Balanced) (place : Nat) (run : Array α) :
    (ledger.step (.write place run)).Balanced := by
  refine ⟨balanced.sound.step (.write place run), ?_, balanced.tidy, ?_⟩
  · intro lease member index belongs
    obtain ⟨i, short, rfl⟩ := List.mem_iff_getElem.1 member
    simp only [Ledger.step, List.length_modify] at short
    simp only [Ledger.step, List.getElem_modify] at belongs
    refine balanced.inside _ (List.getElem_mem short) index ?_
    split at belongs
    · exact belongs
    · exact belongs
  · have same : Lease.held (ledger.step (.write place run)).live = Lease.held ledger.live := by
      refine Lease.held_modify ?_ ledger.live place
      intro lease
      exact Storage.size_overwrite _ _ _
    rw [same]
    exact balanced.books

theorem Balanced.giveBack (balanced : ledger.Balanced) (place : Nat) :
    (ledger.step (.giveBack place)).Balanced := by
  have sound := balanced.sound.step (.giveBack place)
  cases found : ledger.live[place]? with
  | none =>
    simp only [Ledger.step, found]
    exact balanced
  | some lease =>
    simp only [Ledger.step, found] at sound ⊢
    have member := List.mem_of_getElem? found
    have fits := balanced.sound.2 lease member
    have books := balanced.books
    rw [Lease.held_eraseIdx ledger.live found] at books
    refine ⟨sound, ?_, balanced.tidy.giveBack fits (balanced.inside lease member),
      books.giveBack fits (balanced.inside lease member)⟩
    intro other left index belongs
    rw [(ledger.pool.giveBack lease).idle_size, Pool.config_giveBack ledger.pool fits,
      ← ledger.pool.idle_size]
    exact balanced.inside other (List.mem_of_mem_eraseIdx left) index belongs

theorem Balanced.trim (balanced : ledger.Balanced) : (ledger.step .trim).Balanced := by
  refine ⟨balanced.sound.step .trim, ?_, Pool.tidy_trim ledger.pool, balanced.books.trim⟩
  intro lease member index belongs
  rw [(ledger.step .trim).pool.idle_size]
  exact ledger.pool.idle_size ▸ balanced.inside lease member index belongs

theorem Balanced.step (balanced : ledger.Balanced)
    (small : ledger.pool.config.maxArrayLength ≤ Size.top) (event : Event α) :
    (ledger.step event).Balanced := by
  cases event with
  | rent length => exact balanced.rent small length
  | write place run => exact balanced.write place run
  | giveBack place => exact balanced.giveBack place
  | trim => exact balanced.trim

theorem Balanced.config_step (balanced : ledger.Balanced) (event : Event α) :
    (ledger.step event).pool.config = ledger.pool.config := by
  cases event with
  | rent length => exact Pool.config_rent rfl
  | write place run => rfl
  | giveBack place =>
    cases found : ledger.live[place]? with
    | none => simp only [Ledger.step, found]
    | some lease =>
      simp only [Ledger.step, found]
      exact Pool.config_giveBack _ (balanced.sound.2 lease (List.mem_of_getElem? found))
  | trim => rfl

theorem Balanced.run (balanced : ledger.Balanced) (events : List (Event α))
    (small : ledger.pool.config.maxArrayLength ≤ Size.top) :
    (ledger.run events).Balanced ∧ (ledger.run events).pool.config = ledger.pool.config := by
  induction events generalizing ledger with
  | nil => exact ⟨balanced, rfl⟩
  | cons event rest ih =>
    have config := balanced.config_step event
    obtain ⟨last, same⟩ := ih (balanced.step small event) (config ▸ small)
    exact ⟨last, same.trans config⟩

/-! ## Runs from the start -/

/-- For every usable configuration, whose longest length is a size, and every run of requests,
writes, returns in any order and trims, the counters add up and account for every array, the classes
are as they should be, and the next request is served by an idle array of its class exactly if there
is one. -/
theorem conserves_arrays {config : Pool.Config} (valid : config.validate = .ok ())
    (small : config.maxArrayLength ≤ Size.top) (events : List (Event α)) :
    let last := (fresh config valid : Ledger α).run events
    let counters := last.pool.counters
    counters.rented = counters.allocated + counters.reused ∧
    counters.discarded ≤ counters.returned ∧ counters.returned ≤ counters.rented ∧
    counters.allocated =
      Lease.held last.live + last.pool.idleCount + counters.discarded + last.trimmed ∧
    (∀ index, (last.pool.bucket index).length ≤ config.maxArraysPerBucket ∧
      ∀ cells ∈ last.pool.bucket index, cells.size = 16 * Nat.pow 2 index ∧
        (config.clearOnReturn = true ∨ Element.holdsResources α = true →
          ∀ cell ∈ cells, cell = Element.blank)) ∧
    (∀ lease ∈ last.live,
      (∀ index, lease.bucket = some index → lease.capacity = 16 * Nat.pow 2 index) ∧
      (lease.capacity = 0 → last.pool.giveBack lease = last.pool)) ∧
    last.pool.rent 0 = (.empty, last.pool) ∧
    ∀ length lease next, last.pool.rent length = (lease, next) →
      let idle := last.pool.bucket (Pool.sizeClass length)
      if 0 < length ∧ length ≤ config.maxArrayLength ∧ idle ≠ [] then
        next.counters.reused = counters.reused + 1 ∧
          idle = lease.cells :: next.bucket (Pool.sizeClass length)
      else next.counters.reused = counters.reused := by
  intro last counters
  have first : (fresh config valid : Ledger α).Balanced := balanced_fresh config valid
  obtain ⟨⟨⟨idle, live⟩, -, tidy, books⟩, config_eq⟩ := first.run events small
  have same : last.pool.config = config := config_eq
  refine ⟨books.served, books.discarded_le, ?_, books.stock, ?_, ?_, rfl, ?_⟩
  · show last.pool.counters.returned ≤ last.pool.counters.rented
    rw [books.outstanding]
    exact Nat.le_add_right _ _
  · intro index
    refine ⟨same ▸ tidy.room index, fun cells member => ⟨?_, ?_⟩⟩
    · rw [idle index cells member]
      exact Pool.classLength_eq index
    · intro blanks cell within
      have all_blank := tidy.blank (by rw [Pool.blanksReturns, same]; simpa using blanks) index
        cells member
      rw [all_blank, Storage.blank, Array.mem_replicate] at within
      exact within.2
  · intro lease member
    have fits := live lease member
    refine ⟨fun index belongs => ?_, Pool.giveBack_of_empty last.pool fits⟩
    rw [Lease.capacity, fits index belongs]
    exact Pool.classLength_eq index
  · intro length lease next rented
    have reused := Pool.rent_reused rented
    rw [same] at reused
    exact reused

/-- A class that keeps one array, of which two come back, one of them written to; and a request too
long for any class. -/
theorem conserves_arrays_full_class :
    let events : List (Event UInt8) :=
      [.rent 10, .rent 16, .write 0 #[7], .giveBack 1, .giveBack 0, .rent 3, .rent 40, .rent 0,
        .rent 20, .giveBack 0, .trim]
    let last := (fresh ⟨32, 1, true⟩ rfl : Ledger UInt8).run events
    last.pool.counters.allocated =
        Lease.held last.live + last.pool.idleCount + last.pool.counters.discarded + last.trimmed ∧
      Lease.held last.live = 2 ∧ last.pool.counters =
        { rented := 5, returned := 3, allocated := 4, reused := 1, discarded := 1 } := by
  intro events last
  obtain ⟨-, -, -, stock, -⟩ :=
    conserves_arrays (rfl : (Pool.Config.mk 32 1 true).validate = .ok ()) (by decide) events
  exact ⟨stock, by decide +kernel, by decide +kernel⟩

end Ledger

end PooledBuffers
