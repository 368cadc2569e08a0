import PooledBuffers.Stream.Sink
import PooledBuffers.Stream.Source

/-!
# Loans

What a caller lends to an object and has again when the object ends: memory, a source, or a sink.

* `Loan` — the things lent, as they are at some moment.
* `Borrower` — objects that work on a loan.
-/

namespace PooledBuffers

/-- What an object holds of its caller's. -/
structure Loan where
  memory : Option (Array UInt8) := none
  source : Option Stream.Source := none
  sink : Option Stream.Sink := none

/-- Objects that work on what a caller lent them. -/
class Borrower (ω : Type) where
  /-- What was lent, as the object has changed it so far. -/
  loan : ω → Loan

end PooledBuffers
