import PooledBuffers.Ring.Halves

/-!
# Replies

What an operation on an object answers to its caller.
-/

namespace PooledBuffers

/-- Answers of operations on objects that hold elements of type `α`. -/
inductive Reply (α : Type) where
  /-- Done, with nothing to say. -/
  | done
  | flag (value : Bool)
  | count (value : Nat)
  /-- An index, if there is one. -/
  | place (index : Option Nat)
  /-- An element, if there is one. -/
  | element (value : Option α)
  | run (cells : Array α)
  /-- Memory handed out in two stretches. -/
  | halves (halves : Halves α)
  | refused (error : Error)
  /-- An index outside, where the caller promised one inside. -/
  | outside (fault : IndexFault)
  /-- There is no such object, or it has no such operation. -/
  | gone
  deriving Repr

namespace Reply

variable {α : Type}

/-- An element that should be there, or the fault. -/
def ofIndexed : Except IndexFault α → Reply α
  | .ok value => .element (some value)
  | .error fault => .outside fault

end Reply

end PooledBuffers
