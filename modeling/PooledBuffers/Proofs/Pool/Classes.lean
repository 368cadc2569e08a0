import PooledBuffers.Proofs.Pool.Ledger

/-!
# The size classes of a configuration

A usable configuration has its longest pooled length at a power of two, and one class for each power
from 16 to there. A request that is short enough to pool gets one of these classes, so that its
array finds a place when it comes back.

* `trailingZeros_shiftLeft` — the zero bits of a power of two count its doublings;
* `Config.exists_last_class` — the number of classes, read off the longest pooled length;
* `Config.classFor_lt` — no request is given a class that is not there.
-/

namespace PooledBuffers.Pool

/-- The set bit of a power of two is as high up as the power. -/
theorem trailingZeros_shiftLeft {width power : Nat} (below : power < width) :
    trailingZeros width (1 <<< power) = power := by
  obtain ⟨more, rfl⟩ : ∃ more, width = power + (more + 1) := ⟨width - power - 1, by omega⟩
  rw [Nat.one_shiftLeft]
  have zeros : ∀ place ∈ List.range power, (!(2 ^ power).testBit place) = true := by
    intro place member
    have other : power ≠ place := by
      have inside := List.mem_range.1 member
      omega
    rw [Nat.testBit_two_pow_of_ne other]
    rfl
  have one : (2 ^ power).testBit (power + 0) = true := Nat.testBit_two_pow_self
  -- The bits below the set one are passed over, and there the count ends.
  rw [trailingZeros, List.range_add, List.takeWhile_append_of_pos zeros, List.range_succ_eq_map,
    List.map_cons, List.takeWhile_cons, one]
  simp

theorem classLength_pos (index : Nat) : 0 < classLength index := by
  rw [classLength_eq]
  exact Nat.mul_pos (by decide) (Nat.two_pow_pos index)

namespace Config

variable {config : Config}

/-- What a usable configuration promises. -/
theorem of_validate (valid : config.validate = .ok ()) :
    16 ≤ config.maxArrayLength ∧ isPowerOfTwo config.maxArrayLength = true ∧
      0 < config.maxArraysPerBucket := by
  unfold validate at valid
  split at valid
  · cases valid
  rename_i long
  split at valid
  · cases valid
  rename_i power
  split at valid
  · cases valid
  rename_i room
  unfold minArrayLength at long
  exact ⟨by omega, by simpa using power, by omega⟩

/-- The longest pooled length is that of the last class. -/
theorem exists_last_class (valid : config.validate = .ok ())
    (small : config.maxArrayLength ≤ Size.top) :
    ∃ last, config.maxArrayLength = classLength last ∧ config.bucketCount = last + 1 := by
  obtain ⟨long, isPower, -⟩ := of_validate valid
  have power : config.maxArrayLength = 1 <<< config.maxArrayLength.log2 := by
    unfold isPowerOfTwo at isPower
    rw [Bool.and_eq_true, beq_iff_eq] at isPower
    exact isPower.2
  have least : 4 ≤ config.maxArrayLength.log2 := (Nat.le_log2 (by omega)).2 long
  have below : config.maxArrayLength.log2 < 64 := by
    refine (Nat.log2_lt (by omega)).2 ?_
    unfold Size.top at small
    omega
  have zeros : trailingZeros 64 config.maxArrayLength = config.maxArrayLength.log2 :=
    (congrArg (trailingZeros 64) power).trans (trailingZeros_shiftLeft below)
  have fewest : trailingZeros 64 minArrayLength = 4 := @trailingZeros_shiftLeft 64 4 (by decide)
  refine ⟨config.maxArrayLength.log2 - 4, ?_, ?_⟩
  · have first : minArrayLength = 1 <<< 4 := rfl
    rw [classLength, first, ← Nat.shiftLeft_add, Nat.add_sub_cancel' least]
    exact power
  · rw [bucketCount, zeros, fewest]

theorem classFor_eq_none {length : Nat} :
    config.classFor length = none ↔ config.maxArrayLength < length := by
  unfold classFor
  split
  · rename_i long
    exact ⟨fun _ => long, fun _ => rfl⟩
  · rename_i short
    exact ⟨nofun, fun long => absurd long short⟩

theorem classFor_eq_some {length index : Nat} :
    config.classFor length = some index ↔
      length ≤ config.maxArrayLength ∧ sizeClass length = index := by
  unfold classFor
  split
  · rename_i long
    exact ⟨nofun, fun h => absurd h.1 (Nat.not_le_of_lt long)⟩
  · rename_i short
    rw [Option.some_inj]
    exact ⟨fun h => ⟨Nat.le_of_not_lt short, h⟩, And.right⟩

/-- A request that is pooled is given one of the classes that are there. -/
theorem classFor_lt (valid : config.validate = .ok ()) (small : config.maxArrayLength ≤ Size.top)
    {length index : Nat} (chosen : config.classFor length = some index) :
    index < config.bucketCount := by
  obtain ⟨last, longest, count⟩ := exists_last_class valid small
  obtain ⟨short, rfl⟩ := classFor_eq_some.1 chosen
  have least := (of_validate valid).1
  have power : config.maxArrayLength = 2 ^ (last + 4) := by
    rw [longest, classLength_eq, Nat.pow_add, Nat.mul_comm]
    rfl
  have bits : (max length minArrayLength - 1).log2 < last + 4 := by
    refine (Nat.log2_lt ?_).2 ?_
    · unfold minArrayLength
      omega
    · unfold minArrayLength
      omega
  rw [count]
  unfold sizeClass
  omega

end Config

end PooledBuffers.Pool
