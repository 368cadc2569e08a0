import Mathlib.Data.List.Forall2
import PooledBuffers.Proofs.Leftovers.Collections
import PooledBuffers.Proofs.Leftovers.Rings
import PooledBuffers.Proofs.Leftovers.Writers
import PooledBuffers.Workspace.Typed

/-!
# Workspaces without leftovers

What a user sees of a workspace: the answers to the steps, and of each object all that it shows. Of
two workspaces on pools that are alike, the user sees the same, as long as nobody asks for memory
that is not blanked: a lease as it is, a block that is not blanked, or more of a block than what
was blanked for it.

* `Object.View`, `Object.view` — all that an object shows;
* `Object.Alike`, `Object.Alike.perform`, `Object.alike_make` — objects alike show the same, and
  stay alike;
* `Workspace.Step.Within` — the steps that stay within what was blanked;
* `Workspace.Alike.step` — the same answer from both workspaces, which are alike again.
-/

namespace PooledBuffers

variable {α : Type} {pool pool' : Pool α}

/-! ## Named objects -/

/-- Tables of the same names in the same order, with entries that are related. -/
def SameNames {ω : Type} (related : String → ω → ω → Prop) (table other : List (String × ω)) :
    Prop :=
  List.Forall₂ (fun entry entry' => entry.1 = entry'.1 ∧ related entry.1 entry.2 entry'.2)
    table other

namespace SameNames

variable {ω : Type} {related related' : String → ω → ω → Prop} {table other : List (String × ω)}

theorem put (rest : SameNames related table other) {name : String} {object object' : ω}
    (objects : related name object object') :
    SameNames related ((name, object) :: table) ((name, object') :: other) :=
  .cons ⟨rfl, objects⟩ rest

theorem lookup (same : SameNames related table other) (name : String) :
    Option.Rel (related name) (table.lookup name) (other.lookup name) := by
  induction same with
  | nil => exact .none
  | @cons entry entry' rest rest' both same ih =>
    obtain ⟨key, object⟩ := entry
    obtain ⟨key', object'⟩ := entry'
    obtain ⟨rfl, objects⟩ := both
    rw [List.lookup_cons, List.lookup_cons]
    by_cases here : name = key
    · subst here
      simpa using Option.Rel.some objects
    · rw [beq_false_of_ne here]
      exact ih

/-- Of the entries under other names, something else may be known. -/
theorem without (same : SameNames related table other) {name : String}
    (others : ∀ key, key ≠ name → ∀ object object', related key object object' →
      related' key object object') :
    SameNames related' (table.filter fun entry => entry.1 != name)
      (other.filter fun entry => entry.1 != name) := by
  induction same with
  | nil => exact .nil
  | @cons entry entry' rest rest' both same ih =>
    obtain ⟨key, object⟩ := entry
    obtain ⟨key', object'⟩ := entry'
    obtain ⟨rfl, objects⟩ := both
    by_cases here : key = name
    · simpa only [List.filter_cons, bne_iff_ne, ne_eq, here, not_true_eq_false, if_false] using ih
    · simpa only [List.filter_cons, bne_iff_ne, ne_eq, here, not_false_eq_true, if_true]
        using ih.put (others key here object object' objects)

theorem map_eq {ρ : Type} (same : SameNames related table other) (view : String × ω → ρ)
    (shown : ∀ name object object', related name object object' →
      view (name, object) = view (name, object')) : table.map view = other.map view := by
  induction same with
  | nil => rfl
  | @cons entry entry' rest rest' both same ih =>
    obtain ⟨key, object⟩ := entry
    obtain ⟨key', object'⟩ := entry'
    obtain ⟨rfl, objects⟩ := both
    rw [List.map_cons, List.map_cons, ih, shown key object object' objects]

end SameNames

/-! ## Objects -/

namespace Object

/-- All that an object shows to its user. -/
inductive View (α : Type) where
  | lease (cells : Array α)
  | block (cells : Array α) (length capacity : Nat) (disposed : Bool)
  | span (cells : Array α) (length : Nat) (origin : String) (caller : Option (Array α))
  | writer (cells written : Array α) (position capacity : Nat) (minGrow : Option Nat)
    (grown : Bool) (caller : Option (Array α))
  | ring (slots : Array α) (window : Window) (halves opened : Halves α)
  | list (elements : Array α) (length capacity : Nat)
  | distinct (elements : Array α) (length : Nat)
  | builder (elements : Array α) (length capacity : Nat)

/-- What an object shows: also the cells that are not in use, as far as its user can get at them. -/
def view : Object α → View α
  | .ofLease lease => .lease lease.cells
  | .ofBlock block => .block block.cells block.length block.capacity block.isDisposed
  | .ofSpan span => .span span.cells span.length span.originWord span.caller
  | .ofWriter writer =>
    .writer writer.cells writer.written writer.position writer.capacity writer.minGrow
      writer.isGrown writer.caller
  | .ofRing ring => .ring ring.cells ring.window ring.halves ring.openHalves
  | .ofList list => .list list.toArray list.length list.capacity
  | .ofDistinct distinct => .distinct distinct.toArray distinct.length
  | .ofBuilder builder => .builder builder.toArray builder.length builder.capacity

/-- Objects of one kind that are alike; of a block, `granted` cells were blanked. -/
inductive Alike (granted : Nat) : Object α → Object α → Prop
  | block {block other : Block α} (blocks : block.Granted granted other) :
    Alike granted (.ofBlock block) (.ofBlock other)
  | span {span other : Span α} (spans : span.Alike other) :
    Alike granted (.ofSpan span) (.ofSpan other)
  | writer {writer other : Writer α} (writers : writer.Alike other) :
    Alike granted (.ofWriter writer) (.ofWriter other)
  | ring {ring other : Ring α} (rings : ring.Alike other) :
    Alike granted (.ofRing ring) (.ofRing other)
  | list {list other : GrowList α} (lists : list.Alike other) :
    Alike granted (.ofList list) (.ofList other)
  | distinct {distinct other : DistinctList α} (distincts : distinct.Alike other) :
    Alike granted (.ofDistinct distinct) (.ofDistinct other)
  | builder {builder other : Builder α} (builders : builder.Alike other) :
    Alike granted (.ofBuilder builder) (.ofBuilder other)

variable {granted : Nat} {object other : Object α}

theorem Alike.view (alike : object.Alike granted other) : object.view = other.view := by
  cases alike with
  | block blocks =>
    simp only [Object.view, blocks.alike.cells blocks.length_le, blocks.alike.length,
      blocks.alike.capacity, blocks.alike.isDisposed]
  | span spans =>
    simp only [Object.view, spans.cells, spans.length, spans.originWord, spans.caller]
  | writer writers =>
    simp only [Object.view, writers.cells, writers.written, writers.position, writers.capacity,
      writers.minGrow, writers.isGrown, writers.caller]
  | ring rings => simp only [Object.view, rings.cells, rings.window, rings.halves, rings.openHalves]
  | list lists => simp only [Object.view, lists.toArray, lists.length, lists.capacity]
  | distinct distincts =>
    simp only [Object.view, distincts.toArray, DistinctList.length, distincts.list.length]
  | builder builders =>
    simp only [Object.view, builders.toArray, builders.length, builders.capacity]

theorem Alike.describe [Describe α] (alike : object.Alike granted other) :
    describe object = describe other := by
  cases alike with
  | block blocks =>
    simp only [describe, blocks.alike.length, blocks.alike.capacity, blocks.alike.isDisposed]
  | span spans => simp only [describe, spans.originWord, spans.length]
  | writer writers =>
    simp only [describe, writers.position, writers.capacity, writers.isGrown, writers.minGrow]
  | ring rings => simp only [describe, rings.toArray]
  | list lists => simp only [describe, lists.toArray]
  | distinct distincts => simp only [describe, distincts.toArray]
  | builder builders =>
    simp only [describe, builders.length, builders.capacity, builders.toArray]

/-! ### Making, using and ending objects -/

/-- A recipe whose object does not show memory as it was left. -/
def Recipe.Blanks : Recipe α → Prop
  | .lease _ => False
  | .block _ cleared => cleared = true
  | _ => True

/-- How many cells are blanked for a block. -/
def Recipe.grant (otherwise : Nat) : Recipe α → Nat
  | .block length _ => length
  | _ => otherwise

/-- An operation that does not ask for more of a block than what was blanked for it, and not for
more room than a size can say. -/
def Action.Within (granted : Nat) : Action α → Prop
  | .block action => action.Within granted
  | .list action => action.Sized
  | _ => True

variable [Element α]

theorem Alike.drop (alike : object.Alike granted other) (pools : pool.Alike pool') :
    (object.drop pool).1 = (other.drop pool').1 ∧
      (object.drop pool).2.Alike (other.drop pool').2 := by
  cases alike with
  | block blocks => exact ⟨rfl, (blocks.alike.dispose pools 0).pool⟩
  | span spans =>
    obtain ⟨released, after⟩ := spans.dispose pools
    exact ⟨released.caller, after⟩
  | writer writers =>
    obtain ⟨released, after⟩ := writers.dispose pools
    exact ⟨released.caller, after⟩
  | ring rings =>
    obtain ⟨released, after⟩ := rings.close pools
    exact ⟨released.caller, after⟩
  | list lists => exact ⟨rfl, (lists.dispose pools).pool⟩
  | distinct distincts => exact ⟨rfl, (distincts.dispose pools).pool⟩
  | builder builders => exact ⟨rfl, (builders.dispose pools).pool⟩

variable [BEq α]

theorem Alike.perform (alike : object.Alike granted other) (pools : pool.Alike pool')
    {action : Action α} (within : action.Within granted) :
    SameAnswer (Alike granted) (object.perform pool action) (other.perform pool' action) := by
  have gone : SameAnswer (Alike granted) ((.gone : Reply α), object, pool) (.gone, other, pool') :=
    ⟨rfl, alike, pools⟩
  cases alike with
  | block blocks =>
    cases action with
    | block action =>
      obtain ⟨reply, blocks, pools⟩ := blocks.perform pools within
      exact ⟨reply, .block blocks, pools⟩
    | _ => exact gone
  | span spans =>
    cases action with
    | span action =>
      obtain ⟨reply, spans, pools⟩ := spans.perform pools action
      exact ⟨reply, .span spans, pools⟩
    | _ => exact gone
  | writer writers =>
    cases action with
    | writer action =>
      obtain ⟨reply, writers, pools⟩ := writers.perform pools action
      exact ⟨reply, .writer writers, pools⟩
    | _ => exact gone
  | ring rings =>
    cases action with
    | ring action =>
      obtain ⟨reply, rings⟩ := rings.perform action
      exact ⟨reply, .ring rings, pools⟩
    | _ => exact gone
  | list lists =>
    cases action with
    | list action =>
      obtain ⟨reply, lists, pools⟩ := lists.perform pools within
      exact ⟨reply, .list lists, pools⟩
    | _ => exact gone
  | distinct distincts =>
    cases action with
    | distinct action =>
      obtain ⟨reply, distincts, pools⟩ := distincts.perform pools action
      exact ⟨reply, .distinct distincts, pools⟩
    | _ => exact gone
  | builder builders =>
    cases action with
    | builder action =>
      obtain ⟨reply, builders, pools⟩ := builders.perform pools action
      exact ⟨reply, .builder builders, pools⟩
    | _ => exact gone

omit [Element α] [BEq α] in
theorem alike_withGrowth {writer other : Writer α} (alike : writer.Alike other)
    (minGrow : Option Nat) :
    (withGrowth writer minGrow).Alike granted (withGrowth other minGrow) := by
  cases minGrow with
  | none => exact .writer alike
  | some length => exact .writer (alike.withMinGrow length)

theorem alike_make (pools : pool.Alike pool') {recipe : Recipe α} (blanks : recipe.Blanks)
    (otherwise : Nat) :
    SameOutcome (OnAlike (Alike (recipe.grant otherwise))) (make pool recipe)
      (make pool' recipe) := by
  cases recipe with
  | lease length => exact blanks.elim
  | block length cleared =>
    have cleared : cleared = true := blanks
    subst cleared
    obtain ⟨blocks, after⟩ := Block.alike_rent_blank pools length
    exact .done ⟨.block ⟨blocks, Nat.le_refl _⟩, after⟩
  | span length =>
    obtain ⟨spans, after⟩ := Span.alike_rent pools length
    exact .done ⟨.span spans, after⟩
  | lentSpan cells => exact .done ⟨.span (.borrowed cells), pools⟩
  | writer length minGrow =>
    obtain ⟨writers, after⟩ := Writer.alike_withCapacity pools length
    exact .done ⟨alike_withGrowth writers minGrow, after⟩
  | lentWriter cells minGrow =>
    exact .done ⟨alike_withGrowth (Writer.alike_onMemory cells) minGrow, pools⟩
  | ring capacity =>
    exact (Ring.alike_rent pools capacity).bind fun _ _ both =>
      .done ⟨.ring both.object, both.pool⟩
  | lentRing cells =>
    exact (Ring.alike_lend cells).bind fun _ _ alike => .done ⟨.ring alike, pools⟩
  | list capacity =>
    obtain ⟨lists, after⟩ := GrowList.alike_withCapacity pools capacity
    exact .done ⟨.list lists, after⟩
  | listOf run =>
    obtain ⟨lists, after⟩ := GrowList.alike_ofRun pools run
    exact .done ⟨.list lists, after⟩
  | collectedList run =>
    obtain ⟨lists, after⟩ := GrowList.alike_collect pools run
    exact .done ⟨.list lists, after⟩
  | distinct capacity =>
    obtain ⟨distincts, after⟩ := DistinctList.alike_withCapacity pools capacity
    exact .done ⟨.distinct distincts, after⟩
  | distinctOf run =>
    obtain ⟨distincts, after⟩ := DistinctList.alike_ofRun pools run
    exact .done ⟨.distinct distincts, after⟩
  | collectedDistinct run =>
    obtain ⟨distincts, after⟩ := DistinctList.alike_collect pools run
    exact .done ⟨.distinct distincts, after⟩
  | builder minCapacity =>
    exact .done ⟨.builder (Builder.alike_withMinCapacity minCapacity), pools⟩

end Object

/-! ## Workspaces -/

namespace Workspace

/-- What a step answers. -/
inductive Answer (α : Type) where
  | made (outcome : Except Error Unit)
  | reply (reply : Reply α)
  /-- The memory that a caller had lent, if there was such an object. -/
  | dropped (caller : Option (Option (Array α)))
  | trimmed (count : Nat)

/-- The answer to a step. -/
def answer [Element α] [BEq α] (workspace : Workspace α) : Step α → Answer α
  | .create name recipe => .made ((workspace.create name recipe).map fun _ => ())
  | .act name action => .reply (workspace.act name action).1
  | .drop name => .dropped (workspace.drop name).1
  | .trim => .trimmed workspace.trim.1

/-- All objects by name, as they show themselves and in words. -/
def view [Describe α] (workspace : Workspace α) : List (String × Object.View α × String) :=
  workspace.objects.map fun (name, object) => (name, object.view, describe object)

/-- A step that asks for blanked memory only. `grants` says of each block how many cells were
blanked for it. -/
def Step.Within (grants : String → Nat) : Step α → Prop
  | .create _ recipe => recipe.Blanks
  | .act name action => action.Within (grants name)
  | _ => True

/-- How many cells were blanked for each block when a step is done. -/
def Step.grants (grants : String → Nat) : Step α → String → Nat
  | .create name recipe => Function.update grants name (recipe.grant (grants name))
  | _ => grants

/-- Workspaces on pools that are alike, with objects of the same names that are alike. -/
structure Alike (grants : String → Nat) (workspace other : Workspace α) : Prop where
  pool : workspace.pool.Alike other.pool
  objects : SameNames (fun name => Object.Alike (grants name)) workspace.objects other.objects

variable {grants grants' : String → Nat} {workspace other : Workspace α}

namespace Alike

theorem view [Describe α] (alike : workspace.Alike grants other) : workspace.view = other.view :=
  alike.objects.map_eq _ fun name _ _ objects => by
    simp only [objects.view, objects.describe]

theorem erase (alike : workspace.Alike grants other) {name : String}
    (others : ∀ key, key ≠ name → grants' key = grants key) :
    (workspace.erase name).Alike grants' (other.erase name) :=
  ⟨alike.pool, alike.objects.without fun key elsewhere _ _ objects => by
    rw [others key elsewhere]
    exact objects⟩

theorem insert (alike : workspace.Alike grants other) {name : String}
    (others : ∀ key, key ≠ name → grants' key = grants key) {object object' : Object α}
    (objects : object.Alike (grants' name) object') :
    (workspace.insert name object).Alike grants' (other.insert name object') :=
  ⟨alike.pool, (alike.erase others).objects.put objects⟩

variable [Element α]

theorem drop (alike : workspace.Alike grants other) (name : String) :
    (workspace.drop name).1 = (other.drop name).1 ∧
      (workspace.drop name).2.Alike grants (other.drop name).2 := by
  have found := alike.objects.lookup name
  unfold Workspace.drop Workspace.find?
  generalize workspace.objects.lookup name = object at found ⊢
  generalize other.objects.lookup name = object' at found ⊢
  cases found with
  | none => exact ⟨rfl, alike⟩
  | some objects =>
    obtain ⟨caller, pools⟩ := objects.drop alike.pool
    exact ⟨congrArg some caller, pools, (alike.erase fun _ _ => rfl).objects⟩

variable [BEq α]

theorem create (alike : workspace.Alike grants other) (name : String) {recipe : Object.Recipe α}
    (blanks : recipe.Blanks) :
    SameOutcome (Workspace.Alike (Function.update grants name (recipe.grant (grants name))))
      (workspace.create name recipe) (other.create name recipe) := by
  unfold Workspace.create
  refine (Object.alike_make alike.pool blanks (grants name)).bind ?_
  rintro ⟨made, rest⟩ ⟨made', rest'⟩ ⟨objects, pools⟩
  have rented : Workspace.Alike grants ⟨rest, workspace.objects⟩ ⟨rest', other.objects⟩ :=
    ⟨pools, alike.objects⟩
  have dropped := (rented.drop name).2
  refine .done (dropped.insert (fun key elsewhere => Function.update_of_ne elsewhere _ _) ?_)
  rw [Function.update_self]
  exact objects

theorem act (alike : workspace.Alike grants other) (name : String) {action : Object.Action α}
    (within : action.Within (grants name)) :
    (workspace.act name action).1 = (other.act name action).1 ∧
      (workspace.act name action).2.Alike grants (other.act name action).2 := by
  have found := alike.objects.lookup name
  unfold Workspace.act Workspace.find?
  generalize workspace.objects.lookup name = object at found ⊢
  generalize other.objects.lookup name = object' at found ⊢
  cases found with
  | none => exact ⟨rfl, alike⟩
  | some objects =>
    obtain ⟨reply, objects, pools⟩ := objects.perform alike.pool within
    exact ⟨reply, pools, (alike.erase fun _ _ => rfl).objects.put objects⟩

/-- A recipe that is refused is not one for a block. -/
theorem grant_of_refused {name : String} {recipe : Object.Recipe α} {refusal : Error}
    (refused : workspace.create name recipe = .error refusal) (otherwise : Nat) :
    recipe.grant otherwise = otherwise := by
  cases recipe with
  | block length cleared => cases refused
  | _ => rfl

/-- One step: the same answer, and workspaces alike. -/
theorem step (alike : workspace.Alike grants other) {step : Step α} (within : step.Within grants) :
    workspace.answer step = other.answer step ∧
      (workspace.step step).Alike (step.grants grants) (other.step step) := by
  cases step with
  | create name recipe =>
    have made := alike.create name within
    simp only [answer, Workspace.step]
    generalize refused : workspace.create name recipe = outcome at made ⊢
    generalize other.create name recipe = outcome' at made ⊢
    cases made with
    | refused refusal =>
      refine ⟨rfl, ?_⟩
      rw [Step.grants, grant_of_refused refused, Function.update_eq_self]
      exact alike
    | done made => exact ⟨rfl, made⟩
  | act name action =>
    obtain ⟨reply, alike⟩ := alike.act name within
    exact ⟨congrArg Answer.reply reply, alike⟩
  | drop name =>
    obtain ⟨caller, alike⟩ := alike.drop name
    exact ⟨congrArg Answer.dropped caller, alike⟩
  | trim =>
    obtain ⟨count, pools⟩ := alike.pool.trim
    exact ⟨congrArg Answer.trimmed count, pools, alike.objects⟩

end Alike

/-! ### Fixed-width values -/

section Typed

variable {τ : Type} [Layout τ] {workspace other : Workspace UInt8}

theorem Alike.writer? (alike : workspace.Alike grants other) (name : String) :
    Option.Rel Writer.Alike (workspace.writer? name) (other.writer? name) := by
  have found := alike.objects.lookup name
  unfold Workspace.writer? Workspace.find?
  generalize workspace.objects.lookup name = object at found ⊢
  generalize other.objects.lookup name = object' at found ⊢
  cases found with
  | none => exact .none
  | some objects =>
    cases objects with
    | writer writers => exact .some writers
    | _ => exact .none

theorem Alike.writeValue (alike : workspace.Alike grants other) (name : String)
    (order : ByteOrder) (value : τ) :
    (workspace.writeValue name order value).1 = (other.writeValue name order value).1 ∧
      (workspace.writeValue name order value).2.Alike grants
        (other.writeValue name order value).2 := by
  have found := alike.writer? name
  unfold Workspace.writeValue
  generalize workspace.writer? name = writer at found ⊢
  generalize other.writer? name = writer' at found ⊢
  cases found with
  | none => exact ⟨rfl, alike⟩
  | @some writer writer' writers =>
    have written := writers.write alike.pool order value
    dsimp only
    generalize writer.write order value workspace.pool = outcome at written ⊢
    generalize writer'.write order value other.pool = outcome' at written ⊢
    cases written with
    | refused refusal => exact ⟨rfl, alike⟩
    | @done result result' written =>
      obtain ⟨width, writers, pools⟩ := written
      have moved : Workspace.Alike grants { workspace with pool := result.2.2 }
        { other with pool := result'.2.2 } := ⟨pools, alike.objects⟩
      exact ⟨congrArg (some ∘ Except.ok) width,
        moved.insert (fun _ _ => rfl) (.writer writers)⟩

theorem Alike.readValue (alike : workspace.Alike grants other) (name : String)
    (order : ByteOrder) (movePosition : Bool) :
    (workspace.readValue (τ := τ) name order movePosition).1 =
        (other.readValue (τ := τ) name order movePosition).1 ∧
      (workspace.readValue (τ := τ) name order movePosition).2.Alike grants
        (other.readValue (τ := τ) name order movePosition).2 := by
  have found := alike.writer? name
  unfold Workspace.readValue
  generalize workspace.writer? name = writer at found ⊢
  generalize other.writer? name = writer' at found ⊢
  cases found with
  | none => exact ⟨rfl, alike⟩
  | @some writer writer' writers =>
    have read := writers.read (τ := τ) order movePosition
    dsimp only
    generalize writer.read (τ := τ) order movePosition = outcome at read ⊢
    generalize writer'.read (τ := τ) order movePosition = outcome' at read ⊢
    cases read with
    | refused refusal => exact ⟨rfl, alike⟩
    | done read =>
      obtain ⟨value, writers⟩ := read
      refine ⟨congrArg (some ∘ Except.ok) value, ?_⟩
      exact alike.insert (fun _ _ => rfl) (.writer writers)

end Typed

end Workspace

end PooledBuffers
