import Mathlib.Order.Bounds.Defs
import PooledBuffers.Proofs.Pool.Checks

/-!
# Rounding up to a size class

The number of classes, the class of a request and the length of a class's arrays are computed apart
from one another, from the longest pooled length, from the request and from the class. All three
speak of one sequence, the powers of two from 16 to the longest pooled length, and a request is
rounded up to the next of them. None of the steps of this leaves the range of sizes.

* `Pool.roundUp`, `Pool.Config.classInSteps`, `Pool.lengthInSteps` — the class of a request and
  the length of a class, step by step in numbers of 64 bits;
* `Pool.isLeast_classLength` — the class's length is the next power of two;
* `Pool.Config.classInSteps_eq`, `Pool.lengthInSteps_eq` — the steps come to the class and to the
  length, and stay in range;
* `Pool.Config.Sequenced`, `Pool.Rounds` — the sequence of classes, and what a request is given;
* `Pool.rents_next_power` — both, for every usable configuration and every request.
-/

namespace PooledBuffers.Pool

/-! ## The steps -/

/-- The least power of two of 64 bits that is not below a size. -/
def roundUp (size : Nat) : Except Overrun Nat :=
  match (List.range 64).find? fun power => size ≤ 1 <<< power with
  | some power => .ok (1 <<< power)
  | none => .error ⟨size, 1 <<< 63⟩

/-- The class that serves a request: the doublings in its rounded length, less those in the shortest
length. -/
def Config.classInSteps (config : Config) (length : Nat) : Except Overrun (Option Nat) :=
  if config.maxArrayLength < length then .ok none
  else do
    let rounded ← roundUp (max length minArrayLength)
    demand (trailingZeros 64 minArrayLength) (trailingZeros 64 rounded)
    return some (trailingZeros 64 rounded - trailingZeros 64 minArrayLength)

/-- The length of the arrays of a class: a shift by less than 64, of which 64 bits are kept. -/
def lengthInSteps (index : Nat) : Except Overrun Nat := do
  demand (index + 1) 64
  return (minArrayLength <<< index) % (Size.top + 1)

/-! ## Powers of two -/

theorem one_shiftLeft_eq (power : Nat) : 1 <<< power = Nat.pow 2 power :=
  Nat.one_shiftLeft power

theorem classLength_eq_pow (index : Nat) : classLength index = Nat.pow 2 (index + 4) := by
  show _ = 2 ^ (index + 4)
  rw [classLength_eq, Nat.pow_add, Nat.mul_comm]
  rfl

theorem classLength_le_classLength {index other : Nat} :
    classLength index ≤ classLength other ↔ index ≤ other := by
  rw [classLength_eq_pow, classLength_eq_pow]
  exact (Nat.pow_le_pow_iff_right (by decide)).trans Nat.add_le_add_iff_right

theorem classLength_inj {index other : Nat} :
    classLength index = classLength other ↔ index = other := by
  rw [Nat.le_antisymm_iff, classLength_le_classLength, classLength_le_classLength,
    Nat.le_antisymm_iff]

/-- A power of two reaches a length and 16 exactly if it has as many doublings. -/
theorem le_two_pow_iff {length power : Nat} :
    max length minArrayLength ≤ Nat.pow 2 power ↔ sizeClass length + 4 ≤ power := by
  have least : minArrayLength ≤ max length minArrayLength := Nat.le_max_right _ _
  generalize same : max length minArrayLength = wanted at least
  unfold minArrayLength at least
  have three : 3 ≤ (wanted - 1).log2 := (Nat.le_log2 (by omega)).2 (by omega)
  have bits : (wanted - 1).log2 < power ↔ wanted - 1 < Nat.pow 2 power := Nat.log2_lt (by omega)
  unfold sizeClass
  rw [same]
  omega

/-- The length of the class that is chosen for a request is the next power of two. -/
theorem isLeast_classLength (length : Nat) :
    IsLeast {size | (∃ power, size = Nat.pow 2 power) ∧ max length minArrayLength ≤ size}
      (classLength (sizeClass length)) := by
  rw [classLength_eq_pow]
  refine ⟨⟨⟨_, rfl⟩, le_two_pow_iff.2 (Nat.le_refl _)⟩, ?_⟩
  rintro _ ⟨⟨power, rfl⟩, enough⟩
  exact Nat.pow_le_pow_right (by decide) (le_two_pow_iff.1 enough)

theorem roundUp_eq {length : Nat} (small : sizeClass length + 4 < 64) :
    roundUp (max length minArrayLength) = .ok (classLength (sizeClass length)) := by
  have found : (List.range 64).find? (fun power => max length minArrayLength ≤ 1 <<< power) =
      some (sizeClass length + 4) := by
    rw [List.find?_range_eq_some]
    simp only [one_shiftLeft_eq, decide_eq_true_eq, List.mem_range, le_two_pow_iff]
    refine ⟨Nat.le_refl _, small, fun power below => ?_⟩
    simp only [Bool.not_eq_true', decide_eq_false_iff_not]
    exact Nat.not_le_of_lt below
  rw [roundUp, found]
  show Except.ok (1 <<< (sizeClass length + 4)) = _
  rw [one_shiftLeft_eq, classLength_eq_pow]

theorem trailingZeros_classLength {index : Nat} (small : index + 4 < 64) :
    trailingZeros 64 (classLength index) = index + 4 := by
  rw [classLength_eq_pow, ← one_shiftLeft_eq]
  exact trailingZeros_shiftLeft small

theorem lengthInSteps_eq {index : Nat} (small : index + 4 < 64) :
    lengthInSteps index = .ok (classLength index) := by
  have bits : classLength index < Size.top + 1 := by
    rw [classLength_eq_pow]
    show 2 ^ (index + 4) < 2 ^ 64
    exact Nat.pow_lt_pow_right (by decide) small
  rw [lengthInSteps, check_bind (demand_eq_ok (by omega))]
  show Except.ok (classLength index % (Size.top + 1)) = _
  rw [Nat.mod_eq_of_lt bits]

namespace Config

variable {config : Config}

/-! ## The classes of a configuration -/

/-- Every class of a usable configuration has fewer doublings than a size has bits. -/
theorem last_class_small (valid : config.validate = .ok ())
    (small : config.maxArrayLength ≤ Size.top) : config.bucketCount + 3 < 64 := by
  obtain ⟨last, longest, count⟩ := exists_last_class valid small
  rw [longest, classLength_eq_pow] at small
  have bits : 2 ^ (last + 4) < 2 ^ 64 := Nat.lt_of_le_of_lt small (by decide)
  have below := (Nat.pow_lt_pow_iff_right (by decide)).1 bits
  omega

theorem classLength_le_iff (valid : config.validate = .ok ())
    (small : config.maxArrayLength ≤ Size.top) {index : Nat} :
    classLength index ≤ config.maxArrayLength ↔ index < config.bucketCount := by
  obtain ⟨last, longest, count⟩ := exists_last_class valid small
  rw [longest, count, classLength_le_classLength]
  omega

/-- The classes of a configuration, as one sequence of lengths. -/
structure Sequenced (config : Config) : Prop where
  /-- The lengths of the classes are the powers of two from 16 to the longest pooled length. -/
  powers : ∀ length, (∃ index < config.bucketCount, classLength index = length) ↔
    (∃ power, length = Nat.pow 2 power) ∧ 16 ≤ length ∧ length ≤ config.maxArrayLength
  distinct : ∀ index other, classLength index = classLength other → index = other
  /-- No step on the way to a class's length leaves the range of sizes. -/
  in_range : ∀ index < config.bucketCount, lengthInSteps index = .ok (classLength index)

theorem sequenced (valid : config.validate = .ok ()) (small : config.maxArrayLength ≤ Size.top) :
    config.Sequenced where
  powers := by
    intro length
    constructor
    · rintro ⟨index, there, rfl⟩
      refine ⟨⟨_, classLength_eq_pow index⟩, ?_, (classLength_le_iff valid small).2 there⟩
      rw [classLength_eq]
      exact Nat.le_mul_of_pos_right 16 (Nat.two_pow_pos index)
    · rintro ⟨⟨power, rfl⟩, least, most⟩
      have bits : 2 ^ 4 ≤ 2 ^ power := least
      have four : 4 ≤ power := (Nat.pow_le_pow_iff_right (by decide)).1 bits
      have same : classLength (power - 4) = Nat.pow 2 power := by
        rw [classLength_eq_pow, Nat.sub_add_cancel four]
      exact ⟨power - 4, (classLength_le_iff valid small).1 (same ▸ most), same⟩
  distinct := fun _ _ same => classLength_inj.1 same
  in_range := by
    intro index there
    have bits := last_class_small valid small
    exact lengthInSteps_eq (by omega)

/-- The steps come to the class that serves a request, and none of them leaves the range of
sizes. -/
theorem classInSteps_eq (valid : config.validate = .ok ())
    (small : config.maxArrayLength ≤ Size.top) (length : Nat) :
    config.classInSteps length = .ok (config.classFor length) := by
  unfold classInSteps classFor
  by_cases long : config.maxArrayLength < length
  · rw [if_pos long, if_pos long]
  · rw [if_neg long, if_neg long]
    have chosen : config.classFor length = some (sizeClass length) := if_neg long
    have there := classFor_lt valid small chosen
    have bits := last_class_small valid small
    have zeros : trailingZeros 64 (classLength (sizeClass length)) = sizeClass length + 4 :=
      trailingZeros_classLength (by omega)
    have fewest : trailingZeros 64 minArrayLength = 4 := by decide
    rw [roundUp_eq (by omega)]
    show (demand _ (trailingZeros 64 (classLength (sizeClass length))) >>= fun _ => _) = _
    rw [zeros, fewest, check_bind (demand_eq_ok (Nat.le_add_left _ _))]
    rfl

end Config

/-! ## What a request is given -/

variable {α : Type} [Element α] {pool : Pool α} {length : Nat}

/-- What is given belongs to the class that serves the request; what belongs to none is as long as
was asked for. -/
theorem rent_chosen (pool : Pool α) (some_cells : 1 ≤ length) :
    (pool.rent length).1.bucket = pool.config.classFor length ∧
      ((pool.rent length).1.bucket = none → (pool.rent length).1.capacity = length) := by
  rcases given : pool.rent length with ⟨lease, next⟩
  rcases rent_cases given with ⟨nothing, -, -⟩ | ⟨-, unpooled, rfl, -⟩ |
    ⟨index, -, chosen, -, rfl, -⟩ | ⟨index, cells, rest, -, chosen, -, rfl, -⟩
  · omega
  · exact ⟨unpooled.symm, fun _ => Storage.size_blank length⟩
  · exact ⟨chosen.symm, nofun⟩
  · exact ⟨chosen.symm, nofun⟩

/-- A request that is short enough to pool is rounded up to the next power of two and given an array
of its class; any other is given one of exactly the length asked for. -/
structure Rounds (pool : Pool α) (length : Nat) : Prop where
  /-- No step on the way to the class leaves the range of sizes. -/
  in_range : pool.config.classInSteps length = .ok (pool.rent length).1.bucket
  pooled : length ≤ pool.config.maxArrayLength → ∃ index < pool.config.bucketCount,
    (pool.rent length).1.bucket = some index ∧
    (pool.rent length).1.capacity = 16 * Nat.pow 2 index ∧
    IsLeast {size | (∃ power, size = Nat.pow 2 power) ∧ max length 16 ≤ size}
      (16 * Nat.pow 2 index) ∧
    16 * Nat.pow 2 index ≤ pool.config.maxArrayLength
  unpooled : pool.config.maxArrayLength < length →
    (pool.rent length).1.bucket = none ∧ (pool.rent length).1.capacity = length

theorem rounds (sound : pool.Sound) (small : pool.config.maxArrayLength ≤ Size.top)
    (some_cells : 1 ≤ length) : pool.Rounds length := by
  obtain ⟨belongs, exactly⟩ := rent_chosen pool some_cells
  refine ⟨?_, fun short => ?_, fun long => ?_⟩
  · rw [belongs]
    exact Config.classInSteps_eq pool.valid small length
  · have chosen : pool.config.classFor length = some (sizeClass length) :=
      Config.classFor_eq_some.2 ⟨short, rfl⟩
    rw [chosen] at belongs
    have there := Config.classFor_lt pool.valid small chosen
    have longest := (Config.classLength_le_iff pool.valid small).2 there
    have rounded := isLeast_classLength length
    rw [classLength_eq] at longest rounded
    exact ⟨sizeClass length, there, belongs,
      (rent_fits sound length _ belongs).trans (classLength_eq _), rounded, longest⟩
  · rw [Config.classFor_eq_none.2 long] at belongs
    exact ⟨belongs, exactly belongs⟩

/-- The classes of every usable configuration are the powers of two from 16 to its longest pooled
length, one class for each; and in every state that its users can leave such a pool in, a request
for some cells is rounded up to the next of them, or given its own length if it is too long to
pool. None of the steps on the way leaves the range of sizes. -/
theorem rents_next_power {config : Config} (valid : config.validate = .ok ())
    (small : config.maxArrayLength ≤ Size.top) :
    config.Sequenced ∧ ∀ pool : Pool α, pool.Reachable → pool.config = config →
      ∀ length, 1 ≤ length → pool.Rounds length := by
  refine ⟨Config.sequenced valid small, ?_⟩
  rintro pool reachable rfl length some_cells
  exact rounds reachable.sound small some_cells

/-- The largest of all configurations, and a request that is rounded up to its last class. -/
theorem rents_next_power_last_class :
    let config : Config := { maxArrayLength := 9223372036854775808 }
    config.validate = .ok () ∧ config.maxArrayLength ≤ Size.top ∧ config.Sequenced ∧
      ∃ pool : Pool UInt8, pool.Reachable ∧ pool.config = config ∧
        1 ≤ 4611686018427387905 ∧ pool.Rounds 4611686018427387905 := by
  intro config
  have valid : config.validate = .ok () := by
    rw [Config.validate, if_neg (by decide), if_neg (by decide +kernel), if_neg (by decide)]
  have small : config.maxArrayLength ≤ Size.top := by decide
  obtain ⟨sequenced, rounds⟩ := @rents_next_power UInt8 _ config valid small
  have reachable : (ofValid config valid : Pool UInt8).Reachable := ⟨config, valid, [], rfl⟩
  exact ⟨valid, small, sequenced, ofValid config valid, reachable, rfl, by decide,
    rounds _ reachable rfl _ (by decide)⟩

end PooledBuffers.Pool
