import PooledBuffers.Proofs.Bounds
import PooledBuffers.Proofs.Sequences
import PooledBuffers.Size

/-!
# Machines that answer alike

An object with its pool, and a plain value that stands for it, both are machines: they answer an
action and go on to their next state. That one of them does as the other is shown for one action
and holds for all runs.

* `Machine.play` — the answers to a run of actions and the state after it;
* `Machine.Along` — what holds of every action of a run and of the state that it comes in;
* `Machine.Refines`, `Machine.Refines.play`, `Machine.Refines.along` — from one action to a run;
* `Machine.Countable` — a plain list stays as short as a size can say;
* `Machine.foldl_related`, `Machine.checkEach_eq_ok` — values that are added one by one.
-/

namespace PooledBuffers

/-- What a state answers to an action, and the state after it. -/
abbrev Machine (σ β ρ : Type) := σ → β → ρ × σ

namespace Machine

variable {σ τ β ρ : Type}

/-- The answers to a run of actions, and the state after the last of them. -/
def play (machine : Machine σ β ρ) (state : σ) : List β → List ρ × σ
  | [] => ([], state)
  | action :: rest =>
    let (answer, next) := machine state action
    let (answers, last) := play machine next rest
    (answer :: answers, last)

/-- Something holds of every action of a run and of the state that it comes in. -/
def Along (machine : Machine σ β ρ) (holds : σ → β → Prop) (state : σ) : List β → Prop
  | [] => True
  | action :: rest => holds state action ∧ Along machine holds (machine state action).2 rest

instance decidableAlong (machine : Machine σ β ρ) (holds : σ → β → Prop)
    [∀ state action, Decidable (holds state action)] :
    ∀ state actions, Decidable (machine.Along holds state actions)
  | _, [] => .isTrue trivial
  | state, action :: rest =>
    have := decidableAlong machine holds (machine state action).2 rest
    inferInstanceAs (Decidable (holds state action ∧ machine.Along holds _ rest))

theorem play_state (machine : Machine σ β ρ) (actions : List β) (state : σ) :
    (machine.play state actions).2 =
      actions.foldl (fun state action => (machine state action).2) state := by
  induction actions generalizing state with
  | nil => rfl
  | cons action rest ih => exact ih (machine state action).2

/-- Related states answer the same and stay related, as long as the actions are allowed. -/
structure Refines (machine : Machine σ β ρ) (plain : Machine τ β ρ) (related : σ → τ → Prop)
    (allowed : τ → β → Prop) : Prop where
  answer : ∀ {state image action}, related state image → allowed image action →
    (machine state action).1 = (plain image action).1
  next : ∀ {state image action}, related state image → allowed image action →
    related (machine state action).2 (plain image action).2

namespace Refines

variable {machine : Machine σ β ρ} {plain : Machine τ β ρ} {related : σ → τ → Prop}
  {allowed : τ → β → Prop} {state : σ} {image : τ}

/-- A run is answered the same, and leaves related states. -/
theorem play (refines : Refines machine plain related allowed) (actions : List β)
    (begins : related state image) (along : plain.Along allowed image actions) :
    (machine.play state actions).1 = (plain.play image actions).1 ∧
      related (machine.play state actions).2 (plain.play image actions).2 := by
  induction actions generalizing state image with
  | nil => exact ⟨rfl, begins⟩
  | cons action rest ih =>
    obtain ⟨answers, ends⟩ := ih (refines.next begins along.1) along.2
    refine ⟨?_, ends⟩
    simp only [Machine.play, refines.answer begins along.1, answers]

/-- What related states promise of their next action holds all along a run. -/
theorem along (refines : Refines machine plain related allowed) {holds : σ → β → Prop}
    (each : ∀ {state image action}, related state image → allowed image action →
      holds state action) (actions : List β) (begins : related state image)
    (along : plain.Along allowed image actions) : machine.Along holds state actions := by
  induction actions generalizing state image with
  | nil => trivial
  | cons action rest ih =>
    refine ⟨each begins along.1, ?_⟩
    exact ih (refines.next begins along.1) along.2

end Refines

/-! ## Plain lists -/

section Lists

variable {α : Type}

/-- After an action a plain list has no more elements than can be counted. -/
def Countable (plain : Machine (List α) β ρ) (items : List α) (action : β) : Prop :=
  (plain items action).2.length ≤ Size.top

instance (plain : Machine (List α) β ρ) (items : List α) (action : β) :
    Decidable (plain.Countable items action) :=
  inferInstanceAs (Decidable (_ ≤ _))

/-! ## Values one by one -/

variable (related : σ → List α → Prop) {add : σ → α → σ} {next : List α → α → List α}
  {state : σ} {items : List α}

/-- Values are added one by one to an object and to the list of elements that stands for it. The
list gets no shorter, so that it stays countable if it ends so. -/
theorem foldl_related (grows : ∀ items value, items.length ≤ (next items value).length)
    (each : ∀ {state items} value, related state items → (next items value).length ≤ Size.top →
      related (add state value) (next items value)) (run : List α) (begins : related state items)
    (short : (run.foldl next items).length ≤ Size.top) :
    related (run.foldl add state) (run.foldl next items) := by
  induction run generalizing state items with
  | nil => exact begins
  | cons value rest ih =>
    have still := length_le_foldl grows rest (next items value)
    exact ih (each value begins (Nat.le_trans still short)) short

/-- The bounds that every single addition relies on. -/
def checkEach (check : σ → α → Except Overrun Unit) (add : σ → α → σ) (state : σ) :
    List α → Except Overrun Unit
  | [] => .ok ()
  | value :: rest => do
    check state value
    checkEach check add (add state value) rest

theorem checkEach_eq_ok (grows : ∀ items value, items.length ≤ (next items value).length)
    {check : σ → α → Except Overrun Unit}
    (each : ∀ {state items} value, related state items → (next items value).length ≤ Size.top →
      check state value = .ok () ∧ related (add state value) (next items value)) (run : List α)
    (begins : related state items) (short : (run.foldl next items).length ≤ Size.top) :
    checkEach check add state run = .ok () := by
  induction run generalizing state items with
  | nil => rfl
  | cons value rest ih =>
    have still := length_le_foldl grows rest (next items value)
    obtain ⟨checked, added⟩ := each value begins (Nat.le_trans still short)
    rw [checkEach, check_bind checked]
    exact ih added short

end Lists

end Machine

end PooledBuffers
