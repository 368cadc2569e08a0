import PooledBuffers.Error
import PooledBuffers.Storage
import PooledBuffers.Text.Describe

/-!
# Sequences in two halves

A sequence that lies in memory in two stretches, one after the other in meaning. An index counts
through the first half and then through the second.
-/

namespace PooledBuffers

/-- A sequence in two stretches. -/
structure Halves (α : Type) where
  first : Array α
  second : Array α
  deriving DecidableEq, Repr

namespace Halves

variable {α : Type}

/-- The sequence without elements. -/
def empty : Halves α := ⟨#[], #[]⟩

def length (halves : Halves α) : Nat := halves.first.size + halves.second.size

def isEmpty (halves : Halves α) : Bool := halves.length = 0

/-- Whether the second half holds anything. -/
def isSplit (halves : Halves α) : Bool := !halves.second.isEmpty

/-- The elements in order. -/
def toArray (halves : Halves α) : Array α := halves.first ++ halves.second

/-- The element at an index. -/
def get? (halves : Halves α) (index : Nat) : Option α :=
  if index < halves.first.size then halves.first[index]?
  else halves.second[index - halves.first.size]?

/-- The element at an index that should be there; `indexed` says how the sequence is called when
it is not. -/
def get (halves : Halves α) (indexed : Indexed) (index : Nat) : Except IndexFault α :=
  match halves.get? index with
  | some value => .ok value
  | none => .error ⟨indexed, index, halves.length⟩

/-- Stores a value at an index. -/
def set? (halves : Halves α) (index : Nat) (value : α) : Option (Halves α) :=
  if index < halves.first.size then
    some { halves with first := halves.first.setIfInBounds index value }
  else if index < halves.length then
    some { halves with
      second := halves.second.setIfInBounds (index - halves.first.size) value }
  else none

/-- Values stored over the elements from the first on, one each, until either runs out. -/
def assign (halves : Halves α) (run : Array α) : Halves α where
  first := Storage.assign halves.first run
  second := Storage.assign halves.second (run.extract halves.first.size run.size)

/-- The two halves in words, under a name. -/
def describeAs [Describe α] (halves : Halves α) (name : String) : String :=
  Text.record name [("first", describe halves.first), ("second", describe halves.second)]

end Halves

end PooledBuffers
