/-!
# Bounds that operations rely on

An operation that reaches into memory, subtracts, or adds in a fixed width relies on a bound. The
definitions below say in the order of the operation which bounds those are: a check succeeds where
the operation goes on, and fails where it would stop for good. That there is memory for a new array
is not checked, but taken for granted throughout.
-/

namespace PooledBuffers

/-- A bound that does not hold where an operation relies on it. -/
structure Overrun where
  needed : Nat
  available : Nat
  deriving DecidableEq, Repr

/-- Relies on there being `needed` of what there is `available`. -/
def demand (needed available : Nat) : Except Overrun Unit :=
  if needed ≤ available then .ok () else .error ⟨needed, available⟩

theorem demand_eq_ok {needed available : Nat} (h : needed ≤ available) :
    demand needed available = .ok () :=
  if_pos h

/-- A check that succeeds hands over to the next one. -/
theorem check_bind {β : Type} {check : Except Overrun Unit} (h : check = .ok ())
    (next : Unit → Except Overrun β) : check >>= next = next () := by
  rw [h]
  rfl

end PooledBuffers
