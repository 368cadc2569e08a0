import PooledBuffers.Proofs.Pool.Classes

/-!
# One request of a pool, one return

What a single request or return changes: the idle arrays of one class, and the counters. An array is
counted when it goes out and when it comes back; the lease on nothing is not.

* `Pool.rent_cases`, `Pool.giveBack_cases` — everything that a request or a return can do;
* `Pool.rent_counts`, `Pool.giveBack_counts` — what they add to the counters;
* `Pool.rent_stock`, `Pool.giveBack_stock` — the arrays made are those out, idle and thrown away.
-/

namespace PooledBuffers

variable {α : Type}

/-- The number of arrays on a lease: none on the empty one. -/
def Lease.count (lease : Lease α) : Nat := if 0 < lease.capacity then 1 else 0

theorem Lease.count_of_pos {lease : Lease α} (held : 0 < lease.capacity) : lease.count = 1 :=
  if_pos held

/-- A lease counts the same with as many other cells. -/
theorem Lease.count_congr {lease other : Lease α} (same : lease.capacity = other.capacity) :
    lease.count = other.count := by
  rw [count, count, same]

/-- The number of arrays on leases: those that are not empty. -/
def Lease.held (leases : List (Lease α)) : Nat := leases.countP fun lease => 0 < lease.capacity

theorem Lease.held_cons (lease : Lease α) (rest : List (Lease α)) :
    held (lease :: rest) = held rest + lease.count := by
  simp [held, Lease.count, List.countP_cons]

/-- A lease that belongs to a class is on an array. -/
theorem Lease.Fits.capacity_pos {lease : Lease α} (fits : lease.Fits) {index : Nat}
    (belongs : lease.bucket = some index) : 0 < lease.capacity := by
  rw [Lease.capacity, fits index belongs]
  exact Pool.classLength_pos index

namespace Pool

/-! ## Idle arrays -/

theorem bucket_eq_getElem {pool : Pool α} {index : Nat} (inside : index < pool.idle.size) :
    pool.bucket index = pool.idle[index] := by
  rw [bucket, Array.getD_eq_getD_getElem?, Array.getElem?_eq_getElem inside]
  rfl

/-- A class that is not there has no idle arrays. -/
theorem lt_size_of_bucket {pool : Pool α} {index : Nat} (some_array : pool.bucket index ≠ []) :
    index < pool.idle.size := by
  refine Nat.lt_of_not_le fun outside => some_array ?_
  rw [bucket, Array.getD_eq_getD_getElem?, Array.getElem?_eq_none outside]
  rfl

theorem bucket_updateBucket {pool : Pool α} {place : Nat} (inside : place < pool.idle.size)
    (f : List (Array α) → List (Array α)) (index : Nat) :
    (pool.updateBucket place f).bucket index =
      if index = place then f (pool.bucket place) else pool.bucket index := by
  simp only [bucket, updateBucket, Array.getD_eq_getD_getElem?, Array.getElem?_modify]
  by_cases same : place = index
  · subst same
    rw [if_pos rfl, if_pos rfl, Array.getElem?_eq_getElem inside]
    rfl
  · rw [if_neg same, if_neg (Ne.symm same)]

/-- The idle arrays are those of all classes. -/
theorem idleCount_eq (pool : Pool α) :
    pool.idleCount = pool.idle.toList.flatten.length := by
  rw [idleCount, ← Array.foldl_toList, List.length_flatten, List.sum_eq_foldl, List.foldl_map]

/-- The length of all lists together changes by what one of them does. -/
theorem length_flatten_modify {β : Type} (f : List β → List β) (lists : List (List β)) :
    ∀ {place : Nat} (inside : place < lists.length),
      (lists.modify place f).flatten.length + lists[place].length =
        lists.flatten.length + (f lists[place]).length := by
  induction lists with
  | nil => simp
  | cons list rest ih =>
    intro place inside
    cases place with
    | zero =>
      simp only [List.modify_zero_cons, List.flatten_cons, List.length_append,
        List.getElem_cons_zero]
      omega
    | succ place =>
      have below := ih (Nat.lt_of_succ_lt_succ inside)
      simp only [List.modify_succ_cons, List.flatten_cons, List.length_append,
        List.getElem_cons_succ]
      omega

theorem idleCount_updateBucket {pool : Pool α} {place : Nat} (inside : place < pool.idle.size)
    (f : List (Array α) → List (Array α)) :
    (pool.updateBucket place f).idleCount + (pool.bucket place).length =
      pool.idleCount + (f (pool.bucket place)).length := by
  rw [idleCount_eq, idleCount_eq, bucket_eq_getElem inside, updateBucket, Array.toList_modify]
  exact length_flatten_modify f pool.idle.toList inside

/-! ## Requests -/

variable [Element α] {pool next : Pool α} {lease : Lease α} {length : Nat}

/-- Everything that a request can do: nothing for a request for nothing; make an array that no
class keeps, or one for a class without idle arrays; take the first idle array of the class. -/
theorem rent_cases (h : pool.rent length = (lease, next)) :
    (length = 0 ∧ lease = .empty ∧ next = pool) ∨
    (0 < length ∧ pool.config.classFor length = none ∧
      lease = ⟨Storage.blank length, none⟩ ∧ next = pool.countRent false) ∨
    (∃ index, 0 < length ∧ pool.config.classFor length = some index ∧ pool.bucket index = [] ∧
      lease = ⟨Storage.blank (classLength index), some index⟩ ∧ next = pool.countRent false) ∨
    ∃ index cells rest, 0 < length ∧ pool.config.classFor length = some index ∧
      pool.bucket index = cells :: rest ∧ lease = ⟨cells, some index⟩ ∧
      next = (pool.updateBucket index List.tail).countRent true := by
  unfold rent at h
  by_cases nothing : length = 0
  · rw [if_pos nothing] at h
    obtain ⟨rfl, rfl⟩ := Prod.mk.inj h
    exact .inl ⟨nothing, rfl, rfl⟩
  rw [if_neg nothing] at h
  have positive : 0 < length := Nat.pos_of_ne_zero nothing
  cases chosen : pool.config.classFor length with
  | none =>
    rw [chosen] at h
    obtain ⟨rfl, rfl⟩ := Prod.mk.inj h
    exact .inr (.inl ⟨positive, rfl, rfl, rfl⟩)
  | some index =>
    simp only [chosen] at h
    cases idle : pool.bucket index with
    | nil =>
      rw [idle] at h
      obtain ⟨rfl, rfl⟩ := Prod.mk.inj h
      exact .inr (.inr (.inl ⟨index, positive, rfl, idle, rfl, rfl⟩))
    | cons cells rest =>
      rw [idle] at h
      obtain ⟨rfl, rfl⟩ := Prod.mk.inj h
      exact .inr (.inr (.inr ⟨index, cells, rest, positive, rfl, idle, rfl, rfl⟩))

theorem config_rent (h : pool.rent length = (lease, next)) : next.config = pool.config := by
  rcases rent_cases h with ⟨-, -, rfl⟩ | ⟨-, -, -, rfl⟩ | ⟨index, -, -, -, -, rfl⟩ |
    ⟨index, cells, rest, -, -, -, -, rfl⟩
  all_goals rfl

/-- A request takes an idle array from the front of a class, if any. -/
theorem bucket_rent (h : pool.rent length = (lease, next)) (index : Nat) :
    next.bucket index <:+ pool.bucket index := by
  rcases rent_cases h with ⟨-, -, rfl⟩ | ⟨-, -, -, rfl⟩ | ⟨place, -, -, -, -, rfl⟩ |
    ⟨place, cells, rest, -, -, idle, -, rfl⟩
  · exact List.suffix_rfl
  · exact List.suffix_rfl
  · exact List.suffix_rfl
  · have inside := lt_size_of_bucket (idle ▸ List.cons_ne_nil _ _)
    show (pool.updateBucket place List.tail).bucket index <:+ _
    rw [bucket_updateBucket inside]
    split
    · rename_i same
      rw [same]
      exact List.tail_suffix _
    · exact List.suffix_rfl

/-- A lease belongs to the class that the request was given. -/
theorem bucket_of_rent (h : pool.rent length = (lease, next)) {index : Nat}
    (belongs : lease.bucket = some index) : pool.config.classFor length = some index := by
  rcases rent_cases h with ⟨-, rfl, -⟩ | ⟨-, -, rfl, -⟩ | ⟨place, -, chosen, -, rfl, -⟩ |
    ⟨place, cells, rest, -, chosen, -, rfl, -⟩
  · cases belongs
  · cases belongs
  · exact chosen.trans belongs
  · exact chosen.trans belongs

/-- A request counts what it hands out; it takes nothing back. -/
theorem rent_counts (sound : pool.Sound) (h : pool.rent length = (lease, next)) :
    next.counters.rented = pool.counters.rented + lease.count ∧
      next.counters.returned = pool.counters.returned ∧
      next.counters.discarded = pool.counters.discarded := by
  have fits : lease.Fits := by
    have := rent_fits sound length
    rwa [h] at this
  rcases rent_cases h with ⟨-, rfl, rfl⟩ | ⟨positive, -, rfl, rfl⟩ |
    ⟨index, -, -, -, rfl, rfl⟩ | ⟨index, cells, rest, -, -, -, rfl, rfl⟩
  · exact ⟨rfl, rfl, rfl⟩
  · rw [Lease.count_of_pos (by simpa [Lease.capacity] using positive)]
    exact ⟨rfl, rfl, rfl⟩
  · rw [Lease.count_of_pos (fits.capacity_pos rfl)]
    exact ⟨rfl, rfl, rfl⟩
  · rw [Lease.count_of_pos (fits.capacity_pos rfl)]
    exact ⟨rfl, rfl, rfl⟩

/-- What a request hands out was made for it, or was idle before. -/
theorem rent_stock (sound : pool.Sound) (h : pool.rent length = (lease, next)) :
    next.counters.allocated + next.counters.reused =
        pool.counters.allocated + pool.counters.reused + lease.count ∧
      next.counters.allocated + pool.idleCount =
        pool.counters.allocated + next.idleCount + lease.count := by
  have fits : lease.Fits := by
    have := rent_fits sound length
    rwa [h] at this
  rcases rent_cases h with ⟨-, rfl, rfl⟩ | ⟨positive, -, rfl, rfl⟩ |
    ⟨index, -, -, -, rfl, rfl⟩ | ⟨index, cells, rest, -, -, idle, rfl, rfl⟩
  · exact ⟨rfl, rfl⟩
  · rw [Lease.count_of_pos (by simpa [Lease.capacity] using positive)]
    exact ⟨Nat.add_right_comm _ _ _, Nat.add_right_comm _ _ _⟩
  · rw [Lease.count_of_pos (fits.capacity_pos rfl)]
    exact ⟨Nat.add_right_comm _ _ _, Nat.add_right_comm _ _ _⟩
  · rw [Lease.count_of_pos (fits.capacity_pos rfl)]
    -- One array fewer is idle, the one handed out.
    have taken := idleCount_updateBucket (lt_size_of_bucket (idle ▸ List.cons_ne_nil _ _)) List.tail
    rw [idle, List.tail_cons, List.length_cons] at taken
    refine ⟨rfl, ?_⟩
    show _ = pool.counters.allocated + (pool.updateBucket index List.tail).idleCount + 1
    show pool.counters.allocated + _ = _
    omega

/-- A request is served by an idle array exactly if it is short enough to pool and its class has
one: then it gets the one in front. -/
theorem rent_reused (h : pool.rent length = (lease, next)) :
    if 0 < length ∧ length ≤ pool.config.maxArrayLength ∧ pool.bucket (sizeClass length) ≠ [] then
      next.counters.reused = pool.counters.reused + 1 ∧
        pool.bucket (sizeClass length) = lease.cells :: next.bucket (sizeClass length)
    else next.counters.reused = pool.counters.reused := by
  rcases rent_cases h with ⟨zero, -, rfl⟩ | ⟨-, long, -, rfl⟩ | ⟨index, -, chosen, none, -, rfl⟩ |
    ⟨index, cells, rest, positive, chosen, idle, rfl, rfl⟩
  · rw [if_neg fun found => Nat.ne_of_gt found.1 zero]
  · have longer := Config.classFor_eq_none.1 long
    rw [if_neg fun found => Nat.not_le_of_lt longer found.2.1]
    rfl
  · obtain ⟨-, rfl⟩ := Config.classFor_eq_some.1 chosen
    rw [if_neg fun found => found.2.2 none]
    rfl
  · obtain ⟨short, rfl⟩ := Config.classFor_eq_some.1 chosen
    have some_array : pool.bucket (sizeClass length) ≠ [] := idle ▸ List.cons_ne_nil _ _
    rw [if_pos ⟨positive, short, some_array⟩]
    refine ⟨rfl, ?_⟩
    show _ = cells :: (pool.updateBucket (sizeClass length) List.tail).bucket (sizeClass length)
    rw [bucket_updateBucket (lt_size_of_bucket some_array), if_pos rfl, idle, List.tail_cons]

/-! ## Returns -/

/-- Everything that a return can do: nothing for the empty lease; throw the array away, which no
class keeps or whose class is full; lay it idle in front of its class, blanked if need be. -/
theorem giveBack_cases (pool : Pool α) (fits : lease.Fits) :
    (lease.bucket = none ∧ lease.capacity = 0 ∧ pool.giveBack lease = pool) ∨
    (0 < lease.capacity ∧
      (∀ index, lease.bucket = some index →
        pool.config.maxArraysPerBucket ≤ (pool.bucket index).length) ∧
      pool.giveBack lease = pool.countReturn false) ∨
    ∃ index cells, lease.bucket = some index ∧
      (pool.bucket index).length < pool.config.maxArraysPerBucket ∧
      cells.size = lease.capacity ∧ (pool.blanksReturns → cells = Storage.blank lease.capacity) ∧
      pool.giveBack lease = (pool.updateBucket index (cells :: ·)).countReturn true := by
  unfold giveBack
  cases belongs : lease.bucket with
  | none =>
    by_cases nothing : lease.cells.isEmpty
    · exact .inl ⟨rfl, Array.isEmpty_iff_size_eq_zero.1 nothing, if_pos nothing⟩
    · refine .inr (.inl ⟨?_, by simp, if_neg nothing⟩)
      exact Nat.pos_of_ne_zero fun zero => nothing (Array.isEmpty_iff_size_eq_zero.2 zero)
  | some index =>
    by_cases room : (pool.bucket index).length < pool.config.maxArraysPerBucket
    · refine .inr (.inr ⟨index, _, rfl, room, ?_, ?_, if_pos room⟩)
      · split
        · exact Storage.size_blank _
        · rfl
      · intro blanks
        exact if_pos blanks
    · refine .inr (.inl ⟨fits.capacity_pos belongs, ?_, if_neg room⟩)
      rintro _ ⟨rfl⟩
      exact Nat.le_of_not_lt room

/-- An empty lease is not counted and joins no class. -/
theorem giveBack_of_empty (pool : Pool α) (fits : lease.Fits) (nothing : lease.capacity = 0) :
    pool.giveBack lease = pool := by
  rcases giveBack_cases pool fits with ⟨-, -, same⟩ | ⟨held, -⟩ | ⟨index, cells, belongs, -⟩
  · exact same
  · exact absurd nothing (Nat.ne_of_gt held)
  · exact absurd nothing (Nat.ne_of_gt (fits.capacity_pos belongs))

theorem config_giveBack (pool : Pool α) (fits : lease.Fits) :
    (pool.giveBack lease).config = pool.config := by
  rcases giveBack_cases pool fits with ⟨-, -, same⟩ | ⟨-, -, away⟩ |
    ⟨index, cells, -, -, -, -, kept⟩
  · rw [same]
  · rw [away]
    rfl
  · rw [kept]
    rfl

/-- A return leaves every class as it is, or lays one array in front of one that had room. -/
theorem bucket_giveBack (pool : Pool α) (fits : lease.Fits)
    (inside : ∀ index, lease.bucket = some index → index < pool.idle.size) (index : Nat) :
    (pool.giveBack lease).bucket index = pool.bucket index ∨
      ∃ cells, (pool.giveBack lease).bucket index = cells :: pool.bucket index ∧
        (pool.bucket index).length < pool.config.maxArraysPerBucket ∧
        (pool.blanksReturns → cells = Storage.blank cells.size) := by
  rcases giveBack_cases pool fits with ⟨-, -, same⟩ | ⟨-, -, away⟩ |
    ⟨place, cells, belongs, room, size, blanks, kept⟩
  · exact .inl (by rw [same])
  · exact .inl (by rw [away]; rfl)
  · have laid : (pool.giveBack lease).bucket index =
        if index = place then cells :: pool.bucket place else pool.bucket index := by
      rw [kept]
      exact bucket_updateBucket (inside place belongs) (cells :: ·) index
    by_cases here : index = place
    · subst here
      rw [if_pos rfl] at laid
      rw [← size] at blanks
      exact .inr ⟨cells, laid, room, blanks⟩
    · rw [if_neg here] at laid
      exact .inl laid

/-- A return counts what comes back. -/
theorem giveBack_counts (pool : Pool α) (fits : lease.Fits) :
    (pool.giveBack lease).counters.rented = pool.counters.rented ∧
      (pool.giveBack lease).counters.returned = pool.counters.returned + lease.count := by
  rcases giveBack_cases pool fits with ⟨-, nothing, same⟩ | ⟨held, -, away⟩ |
    ⟨index, cells, belongs, -, -, -, kept⟩
  · rw [same, Lease.count, nothing]
    exact ⟨rfl, rfl⟩
  · rw [away, Lease.count_of_pos held]
    exact ⟨rfl, rfl⟩
  · rw [kept, Lease.count_of_pos (fits.capacity_pos belongs)]
    exact ⟨rfl, rfl⟩

/-- What comes back is idle from then on, or counted as thrown away; none is made. -/
theorem giveBack_stock (pool : Pool α) (fits : lease.Fits)
    (inside : ∀ index, lease.bucket = some index → index < pool.idle.size) :
    (pool.giveBack lease).counters.allocated = pool.counters.allocated ∧
      (pool.giveBack lease).counters.reused = pool.counters.reused ∧
      (pool.giveBack lease).counters.discarded ≤ pool.counters.discarded + lease.count ∧
      (pool.giveBack lease).counters.discarded + (pool.giveBack lease).idleCount =
        pool.counters.discarded + pool.idleCount + lease.count := by
  rcases giveBack_cases pool fits with ⟨-, nothing, same⟩ | ⟨held, -, away⟩ |
    ⟨index, cells, belongs, -, -, -, kept⟩
  · rw [same, Lease.count, nothing]
    exact ⟨rfl, rfl, Nat.le_refl _, rfl⟩
  · rw [away, Lease.count_of_pos held]
    exact ⟨rfl, rfl, Nat.le_refl _, Nat.add_right_comm _ _ _⟩
  · rw [kept, Lease.count_of_pos (fits.capacity_pos belongs)]
    have laid := idleCount_updateBucket (inside index belongs) (cells :: ·)
    rw [List.length_cons] at laid
    refine ⟨rfl, rfl, Nat.le_succ _, ?_⟩
    show pool.counters.discarded + (pool.updateBucket index (cells :: ·)).idleCount = _
    omega

/-! ## Trims -/

omit [Element α] in
theorem bucket_trim (pool : Pool α) (index : Nat) : pool.trim.2.bucket index = [] := by
  simp only [trim, bucket, Array.getD_eq_getD_getElem?, Array.getElem?_map]
  cases pool.idle[index]? with
  | none => rfl
  | some arrays => rfl

omit [Element α] in
theorem idleCount_trim (pool : Pool α) : pool.trim.2.idleCount = 0 := by
  rw [idleCount_eq, trim, Array.toList_map, List.map_const', List.flatten_replicate_nil]
  rfl

end Pool

end PooledBuffers
