import PooledBuffers.Error
import PooledBuffers.Size
import PooledBuffers.Text.Describe

/-!
# Pool configuration and size classes

A pool keeps arrays of a few fixed lengths, its size classes: class `k` holds arrays of
`16 * 2 ^ k` elements, up to the configured maximum.

* `Pool.Config` — the maximum pooled length, how many idle arrays a class keeps, and whether
  arrays are blanked when they come back.
* `Pool.Config.validate` — the first rule that a configuration breaks.
* `Pool.sizeClass` — the least class whose arrays are long enough.
-/

namespace PooledBuffers.Pool

/-- The length of the shortest pooled array. -/
def minArrayLength : Nat := 16

/-- How a pool behaves. -/
structure Config where
  /-- The length of the longest pooled array. -/
  maxArrayLength : Nat := 1048576
  /-- How many idle arrays each size class keeps. -/
  maxArraysPerBucket : Nat := 32
  /-- Whether arrays are blanked when they come back. -/
  clearOnReturn : Bool := false
  deriving DecidableEq, Repr

/-- The number of zero bits below the lowest set bit of a number of `width` bits. -/
def trailingZeros (width n : Nat) : Nat :=
  ((List.range width).takeWhile fun i => !n.testBit i).length

/-- A number with exactly one set bit. -/
def isPowerOfTwo (n : Nat) : Bool :=
  n != 0 && n == 1 <<< n.log2

namespace Config

/-- Succeeds on a usable configuration, else names the first rule that it breaks. -/
def validate (config : Config) : Except Error Unit :=
  if config.maxArrayLength < minArrayLength then
    .error (.invalidParameter "max_array_length" s!"must be at least {minArrayLength}")
  else if !isPowerOfTwo config.maxArrayLength then
    .error (.invalidParameter "max_array_length" "must be a power of two")
  else if config.maxArraysPerBucket = 0 then
    .error (.invalidParameter "max_arrays_per_bucket" "cannot be zero")
  else .ok ()

/-- The number of size classes. A maximum without any set bit counts as having 64 zero bits. -/
def bucketCount (config : Config) : Nat :=
  trailingZeros 64 config.maxArrayLength - trailingZeros 64 minArrayLength + 1

instance : Describe Config where
  describe config := Text.record "PoolConfig"
    [("max_array_length", describe config.maxArrayLength),
      ("max_arrays_per_bucket", describe config.maxArraysPerBucket),
      ("clear_on_return", describe config.clearOnReturn)]

end Config

/-- The least class whose arrays hold at least `length` elements: the number of doublings that
take 16 to `length` or above. -/
def sizeClass (length : Nat) : Nat :=
  (max length minArrayLength - 1).log2 + 1 - 4

/-- The length of the arrays of a class. -/
def classLength (index : Nat) : Nat :=
  minArrayLength <<< index

/-- The class that serves a request under a configuration; none when it is too long to pool. -/
def Config.classFor (config : Config) (length : Nat) : Option Nat :=
  if config.maxArrayLength < length then none else some (sizeClass length)

end PooledBuffers.Pool
