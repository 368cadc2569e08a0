import PooledBuffers.Text.Decimal

/-!
# Pool counters

How often arrays were handed out, came back, were made, reused and thrown away.
-/

namespace PooledBuffers.Pool

/-- Counts of what a pool did. -/
structure Counters where
  rented : Nat := 0
  returned : Nat := 0
  allocated : Nat := 0
  reused : Nat := 0
  discarded : Nat := 0
  deriving DecidableEq, Repr

namespace Counters

/-- One array handed out, an idle one or a new one. -/
def recordRent (counters : Counters) (reused : Bool) : Counters :=
  if reused then
    { counters with rented := counters.rented + 1, reused := counters.reused + 1 }
  else
    { counters with rented := counters.rented + 1, allocated := counters.allocated + 1 }

/-- One array come back, kept or thrown away. -/
def recordReturn (counters : Counters) (kept : Bool) : Counters :=
  if kept then { counters with returned := counters.returned + 1 }
  else
    { counters with returned := counters.returned + 1, discarded := counters.discarded + 1 }

/-- The number of arrays that are out. -/
def outstanding (counters : Counters) : Nat :=
  counters.rented - counters.returned

/-- The share of requests that an idle array served. -/
def reuseRate (counters : Counters) : Float :=
  if counters.rented = 0 then 0
  else (UInt64.ofNat counters.reused).toFloat / (UInt64.ofNat counters.rented).toFloat

/-- One line that sums up the counters, the reuse rate in percent with two decimal places. -/
def summary (counters : Counters) : String :=
  let (num, den) := (Binary64.mk (counters.reuseRate * 100).toBits).ratio
  Text.record "PoolStats"
    [("rented", describe counters.rented),
      ("returned", describe counters.returned),
      ("outstanding", describe counters.outstanding),
      ("allocated", describe counters.allocated),
      ("discarded", describe counters.discarded),
      ("reuse_rate", fixedPlaces num den 2 ++ "%")]

instance : Describe Counters where
  describe counters := Text.record "PoolStats"
    [("rented", describe counters.rented),
      ("returned", describe counters.returned),
      ("allocated", describe counters.allocated),
      ("reused", describe counters.reused),
      ("discarded", describe counters.discarded)]

end Counters

end PooledBuffers.Pool
