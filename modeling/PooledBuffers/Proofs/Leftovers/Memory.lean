import PooledBuffers.Proofs.Pool.Requests
import PooledBuffers.Proofs.Writer.Memory

/-!
# Memory that looks the same whatever it held before

An array comes back from its pool as its last user left it. Two runs that differ in these leftovers
only are compared side by side: the arrays behind their objects have the same sizes and agree in
the cells that the objects show, and nothing is said about the cells behind those.

* `Storage.Agree` — arrays that agree in their first cells; `Storage.Respects` — edits that keep it;
* `Pool.Alike` — pools with the same idle arrays up to what is in them;
* `Pool.Alike.rent`, `Pool.Alike.giveBack` — pools alike stay alike, and lend alike.
-/

namespace PooledBuffers

universe u

variable {α : Type}

/-! ## Arrays -/

namespace Storage

variable {shown after : Nat} {cells others : Array α}

/-- Arrays of one size that agree in their first `shown` cells. -/
structure Agree (shown : Nat) (cells others : Array α) : Prop where
  size : cells.size = others.size
  get : ∀ i < shown, cells[i]? = others[i]?

namespace Agree

theorem refl (shown : Nat) (cells : Array α) : Agree shown cells cells :=
  ⟨rfl, fun _ _ => rfl⟩

theorem mono (agree : Agree shown cells others) (fewer : after ≤ shown) :
    Agree after cells others :=
  ⟨agree.size, fun i inside => agree.get i (Nat.lt_of_lt_of_le inside fewer)⟩

theorem extract (agree : Agree shown cells others) {stop : Nat} (inside : stop ≤ shown)
    (start : Nat) : cells.extract start stop = others.extract start stop := by
  apply Array.ext_getElem?
  intro i
  rw [Array.getElem?_extract, Array.getElem?_extract, agree.size]
  by_cases within : i < min stop others.size - start
  · rw [if_pos within, if_pos within]
    exact agree.get _ (by omega)
  · rw [if_neg within, if_neg within]

/-- Arrays that agree in all their cells are equal. -/
theorem eq (agree : Agree shown cells others) (all : cells.size ≤ shown) : cells = others := by
  apply Array.ext_getElem?
  intro i
  by_cases inside : i < shown
  · exact agree.get i inside
  · have size := agree.size
    rw [Array.getElem?_eq_none (by omega), Array.getElem?_eq_none (by omega)]

/-- What is written is the same in both arrays. -/
theorem overwrite (agree : Agree shown cells others) (start : Nat) (run : Array α) :
    Agree shown (overwrite cells start run) (overwrite others start run) := by
  refine ⟨by rw [size_overwrite, size_overwrite, agree.size], fun i inside => ?_⟩
  rw [getElem?_overwrite, getElem?_overwrite, agree.size, agree.get i inside]

/-- A run that starts inside what is shown, or right behind it, is shown from then on. -/
theorem extend (agree : Agree shown cells others) {start : Nat} (reaches : start ≤ shown)
    (run : Array α) (further : after ≤ start + run.size) :
    Agree after (Storage.overwrite cells start run) (Storage.overwrite others start run) := by
  refine ⟨by rw [size_overwrite, size_overwrite, agree.size], fun i inside => ?_⟩
  rw [getElem?_overwrite, getElem?_overwrite, agree.size]
  by_cases written : i < others.size ∧ start ≤ i ∧ i < start + run.size
  · rw [if_pos written, if_pos written]
  · rw [if_neg written, if_neg written]
    by_cases old : i < shown
    · exact agree.get i old
    · have size := agree.size
      rw [Array.getElem?_eq_none (by omega), Array.getElem?_eq_none (by omega)]

end Agree

/-- An edit of two arrays that keeps their sizes and leaves them in agreement. -/
def Respects (shown after : Nat) (edit edit' : Array α → Array α) : Prop :=
  ∀ cells others, Agree shown cells others →
    Agree after (edit cells) (edit' others) ∧ (edit cells).size = cells.size

theorem respects_overwrite {start start' : Nat} (same : start = start') (run : Array α) :
    Respects shown shown (overwrite · start run) (overwrite · start' run) :=
  same ▸ fun _ _ agree => ⟨agree.overwrite start run, size_overwrite _ _ _⟩

theorem respects_extend (after : Nat) {start start' : Nat} (same : start = start')
    (reaches : start ≤ shown) (run : Array α) (further : after ≤ start + run.size) :
    Respects shown after (overwrite · start run) (overwrite · start' run) :=
  same ▸ fun _ _ agree => ⟨agree.extend reaches run further, size_overwrite _ _ _⟩

theorem respects_set {place place' : Nat} (same : place = place') (value : α) :
    Respects shown shown (·.setIfInBounds place value) (·.setIfInBounds place' value) := by
  simp only [← overwrite_singleton]
  exact respects_overwrite same #[value]

/-- Cells that are moved have to be shown; those that they are moved to need not be. -/
theorem respects_moveWithin {start size : Nat} (inside : start + size ≤ shown) (target : Nat) :
    Respects shown shown (fun cells : Array α => moveWithin cells start size target)
      (moveWithin · start size target) := by
  intro cells others agree
  refine ⟨?_, size_moveWithin _ _ _ _⟩
  simp only [moveWithin_eq, agree.extract inside]
  exact agree.overwrite target _

/-- One edit after another. -/
theorem Respects.comp {middle : Nat} {first first' second second' : Array α → Array α}
    (before : Respects shown middle first first') (then' : Respects middle after second second') :
    Respects shown after (fun cells => second (first cells))
      (fun cells => second' (first' cells)) :=
  fun cells others agree =>
    let one := before cells others agree
    let two := then' _ _ one.1
    ⟨two.1, two.2.trans one.2⟩

end Storage

open Storage (Agree Respects)

/-! ## Leases and pools -/

/-- Leases on arrays of one class that agree in their first `shown` cells. -/
structure Lease.Alike (shown : Nat) (lease other : Lease α) : Prop where
  bucket : lease.bucket = other.bucket
  cells : Agree shown lease.cells other.cells
  fits : lease.Fits

/-- Pools with one configuration and, class by class, as many idle arrays of the same lengths. What
the arrays hold may differ, and so may the counters. In one of the pools, and therefore in both,
the arrays of a class have its length, as they do in every pool that can be reached. -/
structure Pool.Alike (pool other : Pool α) : Prop where
  sound : pool.Sound
  config : pool.config = other.config
  idle : ∀ index, (pool.bucket index).map Array.size = (other.bucket index).map Array.size

/-- Two objects related in some way, each with its pool, where the pools are alike. -/
structure OnAlike {ω : Type} (related : ω → ω → Prop) (state other : ω × Pool α) : Prop where
  object : related state.1 other.1
  pool : state.2.Alike other.2

/-- The same answer from both objects. -/
structure SameAnswer {ρ : Type u} {ω : Type} (related : ω → ω → Prop)
    (result other : ρ × ω × Pool α) : Prop where
  answer : result.1 = other.1
  state : OnAlike related result.2 other.2

theorem SameAnswer.parts {ρ : Type u} {ω : Type} {related : ω → ω → Prop}
    {result other : ρ × ω × Pool α} (same : SameAnswer related result other) :
    ∃ answer object object' pool pool', result = (answer, object, pool) ∧
      other = (answer, object', pool') ∧ related object object' ∧ pool.Alike pool' := by
  obtain ⟨answer, object, pool⟩ := result
  obtain ⟨answer', object', pool'⟩ := other
  obtain ⟨rfl, objects, pools⟩ := same
  exact ⟨answer, object, object', pool, pool', rfl, rfl, objects, pools⟩

/-- The same refusal, or results that are related. -/
inductive SameOutcome {ε σ : Type} (related : σ → σ → Prop) : Except ε σ → Except ε σ → Prop
  | refused (refusal : ε) : SameOutcome related (.error refusal) (.error refusal)
  | done {result other : σ} (results : related result other) :
    SameOutcome related (.ok result) (.ok other)

theorem SameOutcome.same {ε σ : Type} (outcome : Except ε σ) : SameOutcome Eq outcome outcome := by
  cases outcome with
  | error refusal => exact .refused refusal
  | ok result => exact .done rfl

/-- Two runs go on as they began. -/
theorem SameOutcome.bind {ε σ τ : Type} {related : σ → σ → Prop} {related' : τ → τ → Prop}
    {first other : Except ε σ} {next next' : σ → Except ε τ}
    (outcomes : SameOutcome related first other)
    (further : ∀ result result', related result result' →
      SameOutcome related' (next result) (next' result')) :
    SameOutcome related' (first >>= next) (other >>= next') := by
  cases outcomes with
  | refused refusal => exact .refused refusal
  | done results => exact further _ _ results

namespace Pool

variable {pool other : Pool α}

theorem Alike.refl (sound : pool.Sound) : pool.Alike pool := ⟨sound, rfl, fun _ => rfl⟩

theorem Alike.length_bucket (alike : pool.Alike other) (index : Nat) :
    (pool.bucket index).length = (other.bucket index).length := by
  simpa using congrArg List.length (alike.idle index)

/-- A class that is not there is not changed. -/
theorem bucket_updateBucket_of_le {place : Nat} (outside : pool.idle.size ≤ place)
    (f : List (Array α) → List (Array α)) (index : Nat) :
    (pool.updateBucket place f).bucket index = pool.bucket index := by
  simp only [bucket, updateBucket, Array.getD_eq_getD_getElem?, Array.getElem?_modify]
  by_cases same : place = index
  · subst same
    rw [if_pos rfl, Array.getElem?_eq_none outside]
    rfl
  · rw [if_neg same]

theorem Alike.updateBucket (alike : pool.Alike other) {place : Nat}
    {f g : List (Array α) → List (Array α)}
    (fits : ∀ cells ∈ f (pool.bucket place), cells.size = classLength place)
    (sizes : (f (pool.bucket place)).map Array.size = (g (other.bucket place)).map Array.size) :
    (pool.updateBucket place f).Alike (other.updateBucket place g) := by
  refine ⟨alike.sound.updateBucket fits, alike.config, fun index => ?_⟩
  have classes : pool.idle.size = other.idle.size := by
    rw [pool.idle_size, other.idle_size, alike.config]
  by_cases inside : place < pool.idle.size
  · rw [bucket_updateBucket inside, bucket_updateBucket (classes ▸ inside)]
    split
    · exact sizes
    · exact alike.idle index
  · rw [bucket_updateBucket_of_le (by omega), bucket_updateBucket_of_le (by omega)]
    exact alike.idle index

theorem Alike.countRent (alike : pool.Alike other) (reused : Bool) :
    (pool.countRent reused).Alike (other.countRent reused) :=
  ⟨alike.sound, alike.config, alike.idle⟩

theorem Alike.countReturn (alike : pool.Alike other) (kept : Bool) :
    (pool.countReturn kept).Alike (other.countReturn kept) :=
  ⟨alike.sound, alike.config, alike.idle⟩

theorem Alike.trim (alike : pool.Alike other) :
    pool.trim.1 = other.trim.1 ∧ pool.trim.2.Alike other.trim.2 := by
  refine ⟨?_, sound_trim pool, alike.config, fun index => by rw [bucket_trim, bucket_trim]⟩
  have lengths : pool.idle.toList.map List.length = other.idle.toList.map List.length := by
    have classes : pool.idle.size = other.idle.size := by
      rw [pool.idle_size, other.idle_size, alike.config]
    refine List.ext_getElem (by simpa using classes) fun index inside inside' => ?_
    simp only [List.length_map, Array.length_toList] at inside inside'
    have same := alike.length_bucket index
    rw [bucket_eq_getElem inside, bucket_eq_getElem inside'] at same
    simpa using same
  show pool.idleCount = other.idleCount
  rw [idleCount_eq, idleCount_eq, List.length_flatten, List.length_flatten, lengths]

variable [Element α]

/-- Pools alike lend arrays of one class and one length. -/
theorem Alike.rent (alike : pool.Alike other) (length : Nat) :
    OnAlike (Lease.Alike 0) (pool.rent length) (other.rent length) := by
  have fits := rent_fits alike.sound length
  suffices (pool.rent length).1.bucket = (other.rent length).1.bucket ∧
      (pool.rent length).1.cells.size = (other.rent length).1.cells.size ∧
      (pool.rent length).2.Alike (other.rent length).2 from
    ⟨⟨this.1, ⟨this.2.1, by simp⟩, fits⟩, this.2.2⟩
  unfold Pool.rent
  rw [← alike.config]
  by_cases nothing : length = 0
  · rw [if_pos nothing, if_pos nothing]
    exact ⟨rfl, rfl, alike⟩
  rw [if_neg nothing, if_neg nothing]
  cases pool.config.classFor length with
  | none => exact ⟨rfl, rfl, alike.countRent false⟩
  | some index =>
    have sizes := alike.idle index
    cases mine : pool.bucket index with
    | nil =>
      cases theirs : other.bucket index with
      | nil =>
        simp only [mine, theirs]
        exact ⟨trivial, trivial, alike.countRent false⟩
      | cons cells rest => simp [mine, theirs] at sizes
    | cons cells rest =>
      cases theirs : other.bucket index with
      | nil => simp [mine, theirs] at sizes
      | cons cells' rest' =>
        have heads : cells.size = cells'.size := by
          rw [mine, theirs] at sizes
          exact (List.cons.inj sizes).1
        simp only [mine, theirs]
        refine ⟨trivial, heads, Alike.countRent ?_ true⟩
        refine alike.updateBucket (fun array member => ?_) ?_
        · exact alike.sound index array (List.mem_of_mem_tail member)
        · rw [List.map_tail, List.map_tail, sizes]

/-- Pools alike keep or throw away arrays of one class and one length. -/
theorem Alike.giveBack (alike : pool.Alike other) {shown : Nat} {lease lease' : Lease α}
    (leases : lease.Alike shown lease') : (pool.giveBack lease).Alike (other.giveBack lease') := by
  have sizes := leases.cells.size
  unfold Pool.giveBack Pool.blanksReturns
  rw [← leases.bucket, ← alike.config]
  cases belongs : lease.bucket with
  | none =>
    have same : lease.cells.isEmpty = lease'.cells.isEmpty := by
      rw [Array.isEmpty, Array.isEmpty, sizes]
    simp only [← same]
    split
    · exact alike
    · exact alike.countReturn false
  | some index =>
    simp only [← alike.length_bucket index]
    split
    · refine Alike.countReturn (alike.updateBucket (fun cells member => ?_) ?_) true
      · rcases List.mem_cons.1 member with rfl | old
        · rw [← leases.fits index belongs]
          split
          · exact Storage.size_blank _
          · rfl
        · exact alike.sound index cells old
      · rw [List.map_cons, List.map_cons, alike.idle index]
        split
        · rw [Storage.size_blank, Storage.size_blank, sizes]
        · rw [sizes]
    · exact alike.countReturn false

end Pool

end PooledBuffers
