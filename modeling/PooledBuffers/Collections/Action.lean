import PooledBuffers.Collections.Builder
import PooledBuffers.Collections.DistinctList
import PooledBuffers.Reply

/-!
# Operations on collections

What a caller can do with growing lists, lists of distinct elements and builders, as data, and
runs of several operations.
-/

namespace PooledBuffers

variable {α : Type}

/-! ## Growing lists -/

/-- Operations on a growing list. -/
inductive GrowList.Action (α : Type) where
  | add (value : α)
  | addRange (run : Array α)
  | addEach (run : Array α)
  | look (index : Nat)
  | get (index : Nat)
  | set (index : Nat) (value : α)
  /-- Stores a value where the caller promises an element. -/
  | store (index : Nat) (value : α)
  | indexOf (value : α)
  | contains (value : α)
  | reserve (capacity : Nat)
  | trim
  | clear
  | dispose
  | assign (run : Array α)
  | read

/-- Carries out an operation on a growing list. -/
def GrowList.perform [Element α] [BEq α] (list : GrowList α) (pool : Pool α) :
    GrowList.Action α → Reply α × GrowList α × Pool α
  | .add value => (.done, list.add value pool)
  | .addRange run => (.done, list.addRange run pool)
  | .addEach run => (.done, list.addEach run pool)
  | .look index => (.element (list.get? index), list, pool)
  | .get index => (.ofIndexed (list.get index), list, pool)
  | .set index value =>
    match list.set? index value with
    | some list => (.flag true, list, pool)
    | none => (.flag false, list, pool)
  | .store index value =>
    match list.set? index value with
    | some list => (.done, list, pool)
    | none => (.outside ⟨.cells, index, list.length⟩, list, pool)
  | .indexOf value => (.place (list.indexOf? value), list, pool)
  | .contains value => (.flag (list.contains value), list, pool)
  | .reserve capacity => (.done, list.reserve capacity pool)
  | .trim => (.done, list.trim pool)
  | .clear => (.done, list.clear, pool)
  | .dispose => (.done, list.dispose pool)
  | .assign run => (.done, list.assign run, pool)
  | .read => (.run list.toArray, list, pool)

/-- The list and the pool after a run of operations. -/
def GrowList.run [Element α] [BEq α] (list : GrowList α) (pool : Pool α)
    (actions : List (GrowList.Action α)) : GrowList α × Pool α :=
  actions.foldl (fun (list, pool) action => (list.perform pool action).2) (list, pool)

/-! ## Lists of distinct elements -/

/-- Operations on a list of distinct elements. -/
inductive DistinctList.Action (α : Type) where
  | add (value : α)
  | addRange (run : Array α)
  | addEach (run : Array α)
  | contains (value : α)
  | containsAny (run : Array α)
  | look (index : Nat)
  | get (index : Nat)
  | clear
  | dispose
  | read

/-- Carries out an operation on a list of distinct elements. -/
def DistinctList.perform [Element α] [BEq α] (distinct : DistinctList α) (pool : Pool α) :
    DistinctList.Action α → Reply α × DistinctList α × Pool α
  | .add value =>
    let (added, distinct, pool) := distinct.add value pool
    (.flag added, distinct, pool)
  | .addRange run =>
    let (count, distinct, pool) := distinct.addRange run pool
    (.count count, distinct, pool)
  | .addEach run => (.done, (distinct.addRange run pool).2)
  | .contains value => (.flag (distinct.contains value), distinct, pool)
  | .containsAny run => (.flag (distinct.containsAny run), distinct, pool)
  | .look index => (.element (distinct.get? index), distinct, pool)
  | .get index => (.ofIndexed (distinct.get index), distinct, pool)
  | .clear => (.done, distinct.clear, pool)
  | .dispose => (.done, distinct.dispose pool)
  | .read => (.run distinct.toArray, distinct, pool)

/-- The list and the pool after a run of operations. -/
def DistinctList.run [Element α] [BEq α] (distinct : DistinctList α) (pool : Pool α)
    (actions : List (DistinctList.Action α)) : DistinctList α × Pool α :=
  actions.foldl (fun (distinct, pool) action => (distinct.perform pool action).2)
    (distinct, pool)

/-! ## Builders -/

/-- Operations on a builder. -/
inductive Builder.Action (α : Type) where
  | add (value : α)
  | addRun (run : Array α)
  | addEach (run : Array α)
  | set (index : Nat) (value : α)
  /-- Stores a value through the view of the elements. -/
  | setWritten (index : Nat) (value : α)
  | read
  | dispose

/-- Carries out an operation on a builder. -/
def Builder.perform [Element α] (builder : Builder α) (pool : Pool α) :
    Builder.Action α → Reply α × Builder α × Pool α
  | .add value => (.done, builder.add value pool)
  | .addRun run => (.done, builder.addRun run pool)
  | .addEach run => (.done, builder.addEach run pool)
  | .set index value =>
    match builder.set index value with
    | .ok builder => (.done, builder, pool)
    | .error e => (.refused e, builder, pool)
  | .setWritten index value =>
    match builder.set index value with
    | .ok builder => (.flag true, builder, pool)
    | .error _ => (.flag false, builder, pool)
  | .read => (.run builder.toArray, builder, pool)
  | .dispose => (.done, builder.dispose pool)

/-- The builder and the pool after a run of operations. -/
def Builder.run [Element α] (builder : Builder α) (pool : Pool α)
    (actions : List (Builder.Action α)) : Builder α × Pool α :=
  actions.foldl (fun (builder, pool) action => (builder.perform pool action).2) (builder, pool)

end PooledBuffers
