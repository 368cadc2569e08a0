import PooledBuffers.Workspace.Basic
import PooledBuffers.Writer.Typed

/-!
# Fixed-width values on a workspace of bytes

Writing and reading values through the writers of a workspace.
-/

namespace PooledBuffers.Workspace

variable {τ : Type} [Layout τ]

/-- The writer of a name, if there is one. -/
def writer? (workspace : Workspace UInt8) (name : String) : Option (Writer UInt8) :=
  match workspace.find? name with
  | some (.ofWriter writer) => some writer
  | _ => none

/-- Writes a value through a writer and answers its width. -/
def writeValue (workspace : Workspace UInt8) (name : String) (order : ByteOrder) (value : τ) :
    Option (Except Error Nat) × Workspace UInt8 :=
  match workspace.writer? name with
  | none => (none, workspace)
  | some writer =>
    match writer.write order value workspace.pool with
    | .ok (width, writer, pool) =>
      (some (.ok width), { workspace with pool := pool }.insert name (.ofWriter writer))
    | .error e => (some (.error e), workspace)

/-- Reads a value through a writer. -/
def readValue (workspace : Workspace UInt8) (name : String) (order : ByteOrder)
    (movePosition : Bool) : Option (Except Error τ) × Workspace UInt8 :=
  match workspace.writer? name with
  | none => (none, workspace)
  | some writer =>
    match writer.read order movePosition with
    | .ok (value, writer) => (some (.ok value), workspace.insert name (.ofWriter writer))
    | .error e => (some (.error e), workspace)

end PooledBuffers.Workspace
