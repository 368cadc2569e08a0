import PooledBuffers.Reply
import PooledBuffers.Ring.Basic

/-!
# Operations on rings

What a caller can do with a ring, as data, and runs of several operations.
-/

namespace PooledBuffers.Ring

variable {α : Type}

/-- Operations on a ring. -/
inductive Action (α : Type) where
  | add (value : α)
  | addEach (run : Array α)
  | look (index : Nat)
  | get (index : Nat)
  | set (index : Nat) (value : α)
  /-- Stores a value where the caller promises an element. -/
  | store (index : Nat) (value : α)
  | clear
  | halves
  | lookHalves (index : Nat)
  /-- Stores a value through the two stretches. -/
  | setHalves (index : Nat) (value : α)
  | assign (run : Array α)
  | reversed

/-- Carries out an operation on a ring. -/
def perform [Element α] (ring : Ring α) : Action α → Reply α × Ring α
  | .add value => (.done, ring.add value)
  | .addEach run => (.done, ring.addEach run)
  | .look index => (.element (ring.get? index), ring)
  | .get index => (.ofIndexed (ring.get index), ring)
  | .set index value =>
    match ring.set? index value with
    | some ring => (.flag true, ring)
    | none => (.flag false, ring)
  | .store index value =>
    match ring.set? index value with
    | some ring => (.done, ring)
    | none => (.outside ⟨.ring, index, ring.length⟩, ring)
  | .clear => (.done, ring.clear)
  | .halves => (.halves ring.halves, ring)
  | .lookHalves index => (.element (ring.halves.get? index), ring)
  | .setHalves index value =>
    match ring.openHalves.set? index value with
    | some halves => (.flag true, ring.assign halves.toArray)
    | none => (.flag false, ring)
  | .assign run => (.done, ring.assign run)
  | .reversed => (.run ring.toArray.reverse, ring)

/-- The ring after a run of operations. -/
def run [Element α] (ring : Ring α) (actions : List (Action α)) : Ring α :=
  actions.foldl (fun ring action => (ring.perform action).2) ring

end PooledBuffers.Ring
