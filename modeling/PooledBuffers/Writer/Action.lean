import PooledBuffers.Reply
import PooledBuffers.Writer.Basic

/-!
# Operations on writers

What a caller can do with a writer, as data, and runs of several operations.
-/

namespace PooledBuffers.Writer

variable {α : Type}

/-- Operations on a writer. -/
inductive Action (α : Type) where
  | append (value : α)
  | appendRun (run : Array α)
  | appendEach (run : Array α)
  | acquire (count : Nat) (movePosition : Bool) (content : Array α)
  | advance (count : Nat)
  | advanceTo (position : Nat)
  | moveWithin (start size target : Nat) (movePosition : Bool)
  | setPosition (position : Nat)
  | reset
  | fill (value : α)
  | set (index : Nat) (value : α)
  | setWritten (index : Nat) (value : α)
  | dispose

/-- Carries out an operation on a writer. -/
def perform [Element α] (writer : Writer α) (pool : Pool α) :
    Action α → Reply α × Writer α × Pool α
  | .append value => (.done, writer.append value pool)
  | .appendRun run => (.done, writer.appendRun run pool)
  | .appendEach run => (.done, writer.appendEach run pool)
  | .acquire count movePosition content =>
    let (handed, writer, pool) := writer.acquire count movePosition content pool
    (.run handed, writer, pool)
  | .advance count => (.done, writer.advance count pool)
  | .advanceTo position => (.done, writer.advanceTo position pool)
  | .moveWithin start size target movePosition =>
    match writer.moveWithin start size target movePosition pool with
    | .ok next => (.done, next)
    | .error e => (.refused e, writer, pool)
  | .setPosition position =>
    match writer.setPosition position with
    | .ok writer => (.done, writer, pool)
    | .error e => (.refused e, writer, pool)
  | .reset => (.done, writer.reset, pool)
  | .fill value => (.done, writer.fill value, pool)
  | .set index value =>
    match writer.set? index value with
    | some writer => (.flag true, writer, pool)
    | none => (.flag false, writer, pool)
  | .setWritten index value =>
    match writer.setWritten? index value with
    | some writer => (.flag true, writer, pool)
    | none => (.flag false, writer, pool)
  | .dispose => (.done, writer.dispose pool)

/-- The writer and the pool after a run of operations. -/
def run [Element α] (writer : Writer α) (pool : Pool α) (actions : List (Action α)) :
    Writer α × Pool α :=
  actions.foldl (fun (writer, pool) action => (writer.perform pool action).2) (writer, pool)

end PooledBuffers.Writer
