import PooledBuffers.Error
import PooledBuffers.Text.Describe

/-!
# Eight flags in a byte
-/

namespace PooledBuffers

/-- Eight flags, the first in the lowest bit. -/
structure FlagByte where
  byte : UInt8 := 0
  deriving DecidableEq, Repr

namespace FlagByte

/-- The index of the last flag. -/
def maxIndex : Nat := 7

/-- The byte with only the flag at an index set. -/
def mask (index : Nat) : Except Error UInt8 :=
  if maxIndex < index then .error (.outOfRange "index" index maxIndex)
  else .ok (1 <<< UInt8.ofNat index)

/-- The flag at an index. -/
def get (flags : FlagByte) (index : Nat) : Except Error Bool := do
  return (flags.byte &&& (← mask index)) != 0

/-- Sets or clears the flag at an index. -/
def set (flags : FlagByte) (index : Nat) (value : Bool) : Except Error FlagByte := do
  let mask ← mask index
  return ⟨if value then flags.byte ||| mask else flags.byte &&& ~~~mask⟩

/-- The number of flags that are set. -/
def countSet (flags : FlagByte) : Nat :=
  ((List.range 8).filter fun index => flags.byte.toNat.testBit index).length

instance : Describe FlagByte where
  describe flags := Text.applied "PackedBools" (describe flags.byte)

end FlagByte

end PooledBuffers
