import PooledBuffers.Collections.Action
import PooledBuffers.Memory.Action
import PooledBuffers.Ring.Action
import PooledBuffers.Writer.Action

/-!
# Objects on a pool

Everything that can hold memory of a pool, under one type, with the ways to make it, to use it
and to end it.

* `Object.Recipe` — how an object is made.
* `Object.perform` — an operation on an object of the right kind.
* `Object.drop` — its end: rented memory goes back to the pool, lent memory to the caller.
* `Object.heldLength` — the length of the array that an object holds from the pool.
-/

namespace PooledBuffers

/-- Something that may hold memory of a pool. -/
inductive Object (α : Type) where
  | ofLease (lease : Lease α)
  | ofBlock (block : Block α)
  | ofSpan (span : Span α)
  | ofWriter (writer : Writer α)
  | ofRing (ring : Ring α)
  | ofList (list : GrowList α)
  | ofDistinct (distinct : DistinctList α)
  | ofBuilder (builder : Builder α)

namespace Object

variable {α : Type}

/-- How an object is made. -/
inductive Recipe (α : Type) where
  | lease (length : Nat)
  | block (length : Nat) (cleared : Bool)
  | span (length : Nat)
  | lentSpan (cells : Array α)
  | writer (length : Nat) (minGrow : Option Nat)
  | lentWriter (cells : Array α) (minGrow : Option Nat)
  | ring (capacity : Nat)
  | lentRing (cells : Array α)
  | list (capacity : Nat)
  | listOf (run : Array α)
  | collectedList (run : Array α)
  | distinct (capacity : Nat)
  | distinctOf (run : Array α)
  | collectedDistinct (run : Array α)
  | builder (minCapacity : Nat)

/-- A writer with or without a least first growth. -/
def withGrowth (writer : Writer α) : Option Nat → Object α
  | some length => .ofWriter (writer.withMinGrow length)
  | none => .ofWriter writer

/-- Makes an object, with its memory from the pool unless it is lent. -/
def make [Element α] [BEq α] (pool : Pool α) : Recipe α → Except Error (Object α × Pool α)
  | .lease length =>
    let (lease, pool) := pool.rent length
    .ok (.ofLease lease, pool)
  | .block length cleared =>
    let (block, pool) := Block.rent pool length cleared
    .ok (.ofBlock block, pool)
  | .span length =>
    let (span, pool) := Span.rent pool length
    .ok (.ofSpan span, pool)
  | .lentSpan cells => .ok (.ofSpan (.borrowed cells), pool)
  | .writer length minGrow =>
    let (writer, pool) := Writer.withCapacity pool length
    .ok (withGrowth writer minGrow, pool)
  | .lentWriter cells minGrow => .ok (withGrowth (Writer.onMemory cells) minGrow, pool)
  | .ring capacity => do
    let (ring, pool) ← Ring.rent pool capacity
    return (.ofRing ring, pool)
  | .lentRing cells => do return (.ofRing (← Ring.lend cells), pool)
  | .list capacity =>
    let (list, pool) := GrowList.withCapacity pool capacity
    .ok (.ofList list, pool)
  | .listOf run =>
    let (list, pool) := GrowList.ofRun pool run
    .ok (.ofList list, pool)
  | .collectedList run =>
    let (list, pool) := GrowList.collect pool run
    .ok (.ofList list, pool)
  | .distinct capacity =>
    let (distinct, pool) := DistinctList.withCapacity pool capacity
    .ok (.ofDistinct distinct, pool)
  | .distinctOf run =>
    let (distinct, pool) := DistinctList.ofRun pool run
    .ok (.ofDistinct distinct, pool)
  | .collectedDistinct run =>
    let (distinct, pool) := DistinctList.collect pool run
    .ok (.ofDistinct distinct, pool)
  | .builder minCapacity => .ok (.ofBuilder (Builder.withMinCapacity minCapacity), pool)

/-- An operation on an object of one kind. -/
inductive Action (α : Type) where
  | lease (action : Lease.Action α)
  | block (action : Block.Action α)
  | span (action : Span.Action α)
  | writer (action : Writer.Action α)
  | ring (action : Ring.Action α)
  | list (action : GrowList.Action α)
  | distinct (action : DistinctList.Action α)
  | builder (action : Builder.Action α)

/-- Carries out an operation; one for another kind of object changes nothing. -/
def perform [Element α] [BEq α] (object : Object α) (pool : Pool α) (action : Action α) :
    Reply α × Object α × Pool α :=
  match object, action with
  | .ofLease lease, .lease action =>
    let (reply, lease, pool) := lease.perform pool action
    (reply, .ofLease lease, pool)
  | .ofBlock block, .block action =>
    let (reply, block, pool) := block.perform pool action
    (reply, .ofBlock block, pool)
  | .ofSpan span, .span action =>
    let (reply, span, pool) := span.perform pool action
    (reply, .ofSpan span, pool)
  | .ofWriter writer, .writer action =>
    let (reply, writer, pool) := writer.perform pool action
    (reply, .ofWriter writer, pool)
  | .ofRing ring, .ring action =>
    let (reply, ring) := ring.perform action
    (reply, .ofRing ring, pool)
  | .ofList list, .list action =>
    let (reply, list, pool) := list.perform pool action
    (reply, .ofList list, pool)
  | .ofDistinct distinct, .distinct action =>
    let (reply, distinct, pool) := distinct.perform pool action
    (reply, .ofDistinct distinct, pool)
  | .ofBuilder builder, .builder action =>
    let (reply, builder, pool) := builder.perform pool action
    (reply, .ofBuilder builder, pool)
  | object, _ => (.gone, object, pool)

/-- Ends an object. Answers the memory that a caller had lent it, as it left it. -/
def drop [Element α] (object : Object α) (pool : Pool α) : Option (Array α) × Pool α :=
  match object with
  | .ofLease lease => (none, pool.giveBack lease)
  | .ofBlock block => (none, (block.dispose pool).2)
  | .ofSpan span =>
    let (span, pool) := span.dispose pool
    (span.caller, pool)
  | .ofWriter writer =>
    let (writer, pool) := writer.dispose pool
    (writer.caller, pool)
  | .ofRing ring =>
    let (memory, pool) := ring.close pool
    (memory.caller, pool)
  | .ofList list => (none, (list.dispose pool).2)
  | .ofDistinct distinct => (none, (distinct.dispose pool).2)
  | .ofBuilder builder => (none, (builder.dispose pool).2)

/-- The length of the array that an object holds from the pool; zero when it holds none. -/
def heldLength : Object α → Nat
  | .ofLease lease => lease.capacity
  | .ofBlock block => block.capacity
  | .ofSpan (.rented block) => block.capacity
  | .ofSpan _ => 0
  | .ofWriter writer =>
    match writer.backing with
    | .initial (.rented block) => block.capacity
    | .initial _ => 0
    | .grown block _ => block.capacity
  | .ofRing ring =>
    match ring.memory with
    | .rented block => block.capacity
    | _ => 0
  | .ofList list => list.block.capacity
  | .ofDistinct distinct => distinct.list.block.capacity
  | .ofBuilder builder => builder.capacity

instance [Describe α] : Describe (Object α) where
  describe
    | .ofLease lease => describe lease
    | .ofBlock block => describe block
    | .ofSpan span => describe span
    | .ofWriter writer => describe writer
    | .ofRing ring => describe ring
    | .ofList list => describe list
    | .ofDistinct distinct => describe distinct
    | .ofBuilder builder => describe builder

end Object

end PooledBuffers
