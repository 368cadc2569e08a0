import PooledBuffers.Workspace.Object

/-!
# Workspaces

A workspace is a pool and the named objects that hold memory of it.

* `Workspace.create`, `Workspace.act`, `Workspace.drop` — the life of an object.
* `Workspace.trim` — lets the pool's idle arrays go.
* `Workspace.run` — a run of such steps.
-/

namespace PooledBuffers

/-- A pool and the objects on it, by name. -/
structure Workspace (α : Type) where
  pool : Pool α
  objects : List (String × Object α) := []

namespace Workspace

variable {α : Type}

/-- The object of a name. -/
def find? (workspace : Workspace α) (name : String) : Option (Object α) :=
  workspace.objects.lookup name

/-- The workspace without the object of a name; its memory is not given back by this. -/
def erase (workspace : Workspace α) (name : String) : Workspace α :=
  { workspace with objects := workspace.objects.filter fun entry => entry.1 != name }

/-- The workspace with an object put under a name. -/
def insert (workspace : Workspace α) (name : String) (object : Object α) : Workspace α :=
  { workspace with objects := (name, object) :: (workspace.erase name).objects }

/-- Ends the object of a name. Answers its caller's memory, if there was any. -/
def drop [Element α] (workspace : Workspace α) (name : String) :
    Option (Option (Array α)) × Workspace α :=
  match workspace.find? name with
  | none => (none, workspace)
  | some object =>
    let (caller, pool) := object.drop workspace.pool
    (some caller, { workspace.erase name with pool := pool })

/-- Makes an object under a name. An object that had the name before ends once the new one is
there. -/
def create [Element α] [BEq α] (workspace : Workspace α) (name : String)
    (recipe : Object.Recipe α) : Except Error (Workspace α) := do
  let (object, pool) ← Object.make workspace.pool recipe
  let (_, workspace) := { workspace with pool := pool }.drop name
  return workspace.insert name object

/-- Carries out an operation on the object of a name. -/
def act [Element α] [BEq α] (workspace : Workspace α) (name : String)
    (action : Object.Action α) : Reply α × Workspace α :=
  match workspace.find? name with
  | none => (.gone, workspace)
  | some object =>
    let others := workspace.erase name
    let (reply, object, pool) := object.perform others.pool action
    (reply, { pool := pool, objects := (name, object) :: others.objects })

/-- Lets the pool's idle arrays go and answers how many there were. -/
def trim (workspace : Workspace α) : Nat × Workspace α :=
  let (count, pool) := workspace.pool.trim
  (count, { workspace with pool := pool })

/-- Ends all objects in the order of their names. Answers the memory that callers had lent. -/
def dropAll [Element α] (workspace : Workspace α) : List (String × Array α) × Workspace α :=
  let names := (workspace.objects.map Prod.fst).mergeSort fun a b => !(b < a)
  names.foldl
    (fun (lent, workspace) name =>
      match workspace.drop name with
      | (some (some cells), workspace) => (lent ++ [(name, cells)], workspace)
      | (_, workspace) => (lent, workspace))
    ([], workspace)

/-- The number of objects that hold an array of the pool. -/
def holderCount (workspace : Workspace α) : Nat :=
  workspace.objects.countP fun entry => 0 < entry.2.heldLength

/-- One step in the life of a workspace. -/
inductive Step (α : Type) where
  | create (name : String) (recipe : Object.Recipe α)
  | act (name : String) (action : Object.Action α)
  | drop (name : String)
  | trim

/-- Carries out a step; one that is refused changes nothing. -/
def step [Element α] [BEq α] (workspace : Workspace α) : Step α → Workspace α
  | .create name recipe => (workspace.create name recipe).toOption.getD workspace
  | .act name action => (workspace.act name action).2
  | .drop name => (workspace.drop name).2
  | .trim => workspace.trim.2

/-- The workspace after a run of steps. -/
def run [Element α] [BEq α] (workspace : Workspace α) (steps : List (Step α)) : Workspace α :=
  steps.foldl step workspace

end Workspace

end PooledBuffers
