import PooledBuffers.Proofs.Writer.Cursor

/-!
# Lent memory

A writer that starts on memory lent by the caller stays on it until the memory is too short or is
given back, and then leaves it for good: whatever is stored later is stored elsewhere.

* `Writer.Stays`, `Writer.Leaves`, `Writer.Grows` — what becomes of the memory from one state of a
  writer to another;
* `Writer.Uses` — the same for steps that need so much memory and no more;
* `Writer.Tenant` — what works in the memory of a writer, one action after another;
* `Writer.Tenant.Borrows` — what a tenant leaves in lent memory, whatever it is asked to do;
* `Writer.Tenant.Lawful.borrows` — from single actions to runs.
-/

namespace PooledBuffers.Writer

variable {α : Type}

/-! ## Whose memory it is -/

namespace Backing

/-- Whether the memory is the caller's. -/
def isLent : Backing α → Bool
  | initial (.borrowed _) => true
  | _ => false

variable {backing : Backing α}

theorem caller_of_isLent (lent : backing.isLent = true) :
    backing.caller = some backing.cells := by
  cases backing with
  | initial span =>
    cases span with
    | borrowed cells => rfl
    | rented block => exact nomatch lent
    | released caller => exact nomatch lent
  | grown block caller => exact nomatch lent

theorem isLent_edit (backing : Backing α) (f : Array α → Array α) :
    (backing.edit f).isLent = backing.isLent := by
  cases backing with
  | initial span => cases span <;> rfl
  | grown block caller => rfl

theorem isGrown_edit (backing : Backing α) (f : Array α → Array α) :
    (backing.edit f).isGrown = backing.isGrown := by
  cases backing <;> rfl

theorem caller_edit (left : backing.isLent = false) (f : Array α → Array α) :
    (backing.edit f).caller = backing.caller := by
  cases backing with
  | initial span =>
    cases span with
    | borrowed cells => exact nomatch left
    | rented block => rfl
    | released caller => rfl
  | grown block caller => rfl

/-- Memory that is given back is in the state in which it was. -/
theorem caller_dispose [Element α] (backing : Backing α) (pool : Pool α) :
    (backing.dispose pool).1.caller = backing.caller := by
  cases backing with
  | initial span => cases span <;> rfl
  | grown block caller => rfl

theorem isLent_dispose [Element α] (backing : Backing α) (pool : Pool α) :
    (backing.dispose pool).1.isLent = false := by
  cases backing with
  | initial span => cases span <;> rfl
  | grown block caller => rfl

theorem isGrown_dispose [Element α] (backing : Backing α) (pool : Pool α) :
    (backing.dispose pool).1.isGrown = backing.isGrown := by
  cases backing <;> rfl

end Backing

/-- Whether the writer is on the caller's memory. -/
def isLent (writer : Writer α) : Bool := writer.backing.isLent

theorem caller_of_isLent {writer : Writer α} (lent : writer.isLent = true) :
    writer.caller = some writer.cells :=
  Backing.caller_of_isLent lent

/-- Only memory that is not grown can be the caller's. -/
theorem isLent_of_isGrown {writer : Writer α} (grown : writer.isGrown = true) :
    writer.isLent = false := by
  unfold Writer.isGrown at grown
  unfold Writer.isLent
  cases same : writer.backing with
  | initial span =>
    rw [same] at grown
    exact nomatch grown
  | grown block caller => rfl

/-! ## From one state to another -/

/-- One writer comes from another by edits of the memory, which are edits of the caller's if it is
lent, and by moves of the cursor. -/
structure Stays (writer next : Writer α) : Prop where
  isLent_eq : next.isLent = writer.isLent
  isGrown_eq : next.isGrown = writer.isGrown
  capacity_eq : next.capacity = writer.capacity
  caller_eq : writer.isLent = false → next.caller = writer.caller

/-- One writer comes from another and is not on the caller's memory, in which nothing has
changed. -/
structure Leaves (writer next : Writer α) : Prop where
  isLent_eq : next.isLent = false
  caller_eq : next.caller = writer.caller
  still_grown : writer.isGrown = true → next.isGrown = true

/-- One writer comes from another by a growth, before which nothing was stored. -/
structure Grows (writer next : Writer α) : Prop extends Leaves writer next where
  grown : next.isGrown = true

/-- One writer comes from another by steps for which `length` cells are enough. -/
structure Uses (length : Nat) (writer next : Writer α) : Prop where
  stays : length ≤ writer.capacity → Stays writer next
  leaves : writer.isLent = false → Leaves writer next

section

variable {writer mid next : Writer α} {length more : Nat}

theorem Stays.refl (writer : Writer α) : Stays writer writer :=
  ⟨rfl, rfl, rfl, fun _ => rfl⟩

theorem Stays.trans (first : Stays writer mid) (second : Stays mid next) : Stays writer next where
  isLent_eq := second.isLent_eq.trans first.isLent_eq
  isGrown_eq := second.isGrown_eq.trans first.isGrown_eq
  capacity_eq := second.capacity_eq.trans first.capacity_eq
  caller_eq left := (second.caller_eq (first.isLent_eq.trans left)).trans (first.caller_eq left)

theorem Stays.leaves (stays : Stays writer next) (left : writer.isLent = false) :
    Leaves writer next :=
  ⟨stays.isLent_eq.trans left, stays.caller_eq left, stays.isGrown_eq.trans⟩

theorem Stays.uses (stays : Stays writer next) (length : Nat) : Uses length writer next :=
  ⟨fun _ => stays, stays.leaves⟩

theorem Leaves.trans (first : Leaves writer mid) (second : Leaves mid next) : Leaves writer next :=
  ⟨second.isLent_eq, second.caller_eq.trans first.caller_eq,
    fun grown => second.still_grown (first.still_grown grown)⟩

theorem Leaves.stays (leaves : Leaves writer mid) (stays : Stays mid next) : Leaves writer next :=
  leaves.trans (stays.leaves leaves.isLent_eq)

theorem Grows.leaves (grows : Grows writer mid) (leaves : Leaves mid next) : Grows writer next :=
  ⟨grows.toLeaves.trans leaves, leaves.still_grown grows.grown⟩

/-- What is done after a growth is not done in the caller's memory. -/
theorem Grows.uses (grows : Grows writer mid) (uses : Uses length mid next) : Grows writer next :=
  grows.leaves (uses.leaves grows.isLent_eq)

theorem Uses.refl (writer : Writer α) : Uses 0 writer writer := (Stays.refl writer).uses 0

theorem Uses.mono (uses : Uses length writer next) (h : length ≤ more) : Uses more writer next :=
  ⟨fun enough => uses.stays (Nat.le_trans h enough), uses.leaves⟩

theorem Uses.trans (first : Uses length writer mid) (second : Uses length mid next) :
    Uses length writer next where
  stays enough := by
    have stays := first.stays enough
    exact stays.trans (second.stays (stays.capacity_eq.symm ▸ enough))
  leaves left := by
    have leaves := first.leaves left
    exact leaves.trans (second.leaves leaves.isLent_eq)

/-- An edit that keeps the length, with the cursor put anywhere. -/
theorem stays_edit (writer : Writer α) {f : Array α → Array α}
    (keeps : ∀ cells, (f cells).size = cells.size) (position : Nat) :
    Stays writer { writer with backing := writer.backing.edit f, position := position } where
  isLent_eq := Backing.isLent_edit _ _
  isGrown_eq := Backing.isGrown_edit _ _
  capacity_eq := Backing.length_edit _ keeps
  caller_eq left := Backing.caller_edit left f

theorem stays_at (writer : Writer α) (position : Nat) :
    Stays writer { writer with position := position } :=
  ⟨rfl, rfl, rfl, fun _ => rfl⟩

end

section Room

variable [Element α] {writer : Writer α} {pool : Pool α} {start size target : Nat}

theorem grows_grow (writer : Writer α) (requested : Nat) (pool : Pool α) :
    Grows writer (writer.grow requested pool).1 := by
  refine ⟨⟨rfl, ?_, fun _ => rfl⟩, rfl⟩
  rw [grow_eq]
  exact Backing.caller_dispose _ _

theorem leaves_dispose (writer : Writer α) (pool : Pool α) :
    Leaves writer (writer.dispose pool).1 :=
  ⟨Backing.isLent_dispose _ _, Backing.caller_dispose _ _,
    (Backing.isGrown_dispose writer.backing pool).trans⟩

/-- A writer that is not on lent memory leaves it alone when it makes room. -/
theorem leaves_ensureFree (left : writer.isLent = false) (count : Nat) (pool : Pool α) :
    Leaves writer (writer.ensureFree count pool).1 := by
  unfold ensureFree
  split
  · exact (grows_grow writer _ pool).toLeaves
  · exact (Stays.refl writer).leaves left

theorem grows_ensureCapacity {length : Nat} (short : writer.capacity < length) (pool : Pool α) :
    Grows writer (writer.ensureCapacity length pool).1 := by
  unfold ensureCapacity
  rw [if_pos short]
  exact grows_grow writer _ pool

theorem uses_ensureCapacity (writer : Writer α) (length : Nat) (pool : Pool α) :
    Uses length writer (writer.ensureCapacity length pool).1 := by
  unfold ensureCapacity
  split
  · rename_i short
    exact ⟨fun enough => absurd short (Nat.not_lt.2 enough),
      fun _ => (grows_grow writer _ pool).toLeaves⟩
  · exact (Stays.refl writer).uses length

theorem uses_advanceTo (writer : Writer α) (position : Nat) (pool : Pool α) :
    Uses position writer (writer.advanceTo position pool).1 :=
  (uses_ensureCapacity writer position pool).trans ((stays_at _ position).uses _)

theorem grows_advanceTo {position : Nat} (short : writer.capacity < position) (pool : Pool α) :
    Grows writer (writer.advanceTo position pool).1 :=
  (grows_ensureCapacity short pool).uses ((stays_at _ position).uses 0)

/-- Free cells at the cursor are memory up to their end. -/
theorem ensureFree_eq (inside : writer.position ≤ writer.capacity) (count : Nat) (pool : Pool α) :
    writer.ensureFree count pool = writer.ensureCapacity (writer.position + count) pool := by
  have same : count - (writer.capacity - writer.position) =
      writer.position + count - writer.capacity := by omega
  unfold ensureFree ensureCapacity freeCapacity
  by_cases short : writer.capacity < writer.position + count
  · rw [if_pos (by omega), if_pos short, same]
  · rw [if_neg (by omega), if_neg short]

/-- The end of the memory that a move needs. A move that is refused needs none. -/
def moveEnd (writer : Writer α) (start size target : Nat) : Nat :=
  if writer.capacity < start + size then 0
  else if size = 0 ∨ start = target then target
  else if Size.maxCapacity < target + size then 0
  else target + size

omit [Element α] in
theorem moveEnd_le (writer : Writer α) (start size target : Nat) :
    writer.moveEnd start size target ≤ target + size := by
  unfold moveEnd
  split
  · exact Nat.zero_le _
  split
  · exact Nat.le_add_right _ _
  split
  · exact Nat.zero_le _
  · exact Nat.le_refl _

omit [Element α] in
/-- A move down finds room where the cells moved are. -/
theorem moveEnd_le_capacity (writer : Writer α) (size : Nat) (down : target ≤ start) :
    writer.moveEnd start size target ≤ writer.capacity := by
  unfold moveEnd
  split
  · exact Nat.zero_le _
  split
  · omega
  split
  · exact Nat.zero_le _
  · omega

/-- A move makes room first, unless it is refused, in which case it needs none. -/
theorem moveWithin_cases (writer : Writer α) (start size target : Nat) (move : Bool)
    (pool : Pool α) :
    (∃ refusal, writer.moveWithin start size target move pool = .error refusal ∧
      writer.moveEnd start size target = 0) ∨
    ∃ next, writer.moveWithin start size target move pool = .ok next ∧
      Stays (writer.ensureCapacity (writer.moveEnd start size target) pool).1 next.1 := by
  unfold Writer.moveWithin moveEnd
  by_cases outside : writer.capacity < start + size
  · rw [if_pos outside, if_pos outside]
    exact .inl ⟨_, rfl, rfl⟩
  rw [if_neg outside, if_neg outside]
  by_cases trivially : size = 0 ∨ start = target
  · rw [if_pos trivially, if_pos trivially]
    exact .inr ⟨_, rfl, Stays.refl _⟩
  rw [if_neg trivially, if_neg trivially]
  by_cases far : Size.maxCapacity < target + size
  · rw [if_pos far, if_pos far]
    exact .inl ⟨_, rfl, rfl⟩
  · rw [if_neg far, if_neg far]
    exact .inr ⟨_, rfl, stays_edit _ (by simp) _⟩

section Moved

variable {move : Bool} {next : Writer α × Pool α}
  (moved : writer.moveWithin start size target move pool = .ok next)

include moved

theorem stays_moveWithin :
    Stays (writer.ensureCapacity (writer.moveEnd start size target) pool).1 next.1 := by
  rcases writer.moveWithin_cases start size target move pool with ⟨_, refused, _⟩ |
    ⟨result, done, stays⟩
  · rw [refused] at moved
    exact nomatch moved
  · rw [done, Except.ok.injEq] at moved
    exact moved ▸ stays

theorem uses_moveWithin : Uses (writer.moveEnd start size target) writer next.1 :=
  (uses_ensureCapacity writer _ pool).trans ((stays_moveWithin moved).uses _)

/-- A move behind the end of the memory grows it before it carries anything. -/
theorem grows_moveWithin (short : writer.capacity < target + size) : Grows writer next.1 := by
  have source : ¬ writer.capacity < start + size := by
    intro outside
    unfold Writer.moveWithin at moved
    rw [if_pos outside] at moved
    exact nomatch moved
  have needs : writer.capacity < writer.moveEnd start size target := by
    unfold Writer.moveWithin at moved
    unfold moveEnd
    rw [if_neg source] at moved ⊢
    by_cases trivially : size = 0 ∨ start = target
    · rw [if_pos trivially]
      omega
    rw [if_neg trivially] at moved ⊢
    split at moved
    · exact nomatch moved
    · rename_i near
      rwa [if_neg near]
  exact (grows_ensureCapacity needs pool).uses ((stays_moveWithin moved).uses 0)

end Moved

end Room

/-! ## Tenants -/

universe u

/-- What works in the memory of a writer, one action after another. -/
structure Tenant (α σ : Type) (β : Type u) where
  writer : σ → Writer α
  step : σ → β → σ
  /-- An action needs more memory than there is. -/
  Outgrows : σ → β → Prop
  /-- Whether an action gives the memory back. -/
  isDispose : β → Bool
  /-- The writer when an action comes to need more memory than there is. -/
  atGrowth : σ → β → Writer α

namespace Tenant

variable {σ : Type} {β : Type u} (tenant : Tenant α σ β)

def run (first : σ) (actions : List β) : σ := actions.foldl tenant.step first

/-- Some action of a run needs more memory than there is when its turn comes. -/
def EverOutgrown (state : σ) : List β → Prop
  | [] => False
  | action :: rest => tenant.Outgrows state action ∨ EverOutgrown (tenant.step state action) rest

/-- No action of a run needs more memory than there is when its turn comes, or gives it back. -/
def KeepsMemory (state : σ) : List β → Prop
  | [] => True
  | action :: rest =>
    (¬ tenant.Outgrows state action ∧ tenant.isDispose action = false) ∧
      KeepsMemory (tenant.step state action) rest

instance decidableEverOutgrown [∀ state action, Decidable (tenant.Outgrows state action)] :
    ∀ state actions, Decidable (tenant.EverOutgrown state actions)
  | _, [] => .isFalse id
  | state, action :: rest =>
    have := decidableEverOutgrown (tenant.step state action) rest
    inferInstanceAs (Decidable (tenant.Outgrows state action ∨ _))

instance decidableKeepsMemory [∀ state action, Decidable (tenant.Outgrows state action)] :
    ∀ state actions, Decidable (tenant.KeepsMemory state actions)
  | _, [] => .isTrue trivial
  | state, action :: rest =>
    have := decidableKeepsMemory (tenant.step state action) rest
    inferInstanceAs (Decidable ((¬ tenant.Outgrows state action ∧ _) ∧ _))

/-- What becomes of the memory that a tenant starts on. It is exchanged for longer memory when an
action needs more than there is, and not before. While no action needs more, and the memory is not
given back, the caller finds in it what the tenant has in it. The action with which this ends
leaves in it what it held when the action came to need more, and no later action changes it. -/
structure Borrows (first : σ) : Prop where
  grown_iff : ∀ actions, (tenant.writer (tenant.run first actions)).isGrown = true ↔
    tenant.EverOutgrown first actions
  kept : ∀ actions, tenant.KeepsMemory first actions →
    (tenant.writer (tenant.run first actions)).caller =
      some (tenant.writer (tenant.run first actions)).cells
  left : ∀ before action after, tenant.KeepsMemory first before →
    tenant.Outgrows (tenant.run first before) action ∨ tenant.isDispose action = true →
      (tenant.writer (tenant.run first (before ++ action :: after))).caller =
        some (tenant.atGrowth (tenant.run first before) action).cells

/-- What single actions do in the states that a tenant comes into. -/
structure Lawful (sane : σ → Prop) : Prop where
  next : ∀ {state} action, sane state → sane (tenant.step state action)
  stays : ∀ {state action}, sane state → (tenant.writer state).isGrown = false →
    ¬ tenant.Outgrows state action → tenant.isDispose action = false →
      Stays (tenant.writer state) (tenant.writer (tenant.step state action))
  fills : ∀ {state} action, sane state → (tenant.writer state).isGrown = false →
    Stays (tenant.writer state) (tenant.atGrowth state action)
  grows : ∀ {state action}, sane state → (tenant.writer state).isGrown = false →
    tenant.Outgrows state action →
      Grows (tenant.atGrowth state action) (tenant.writer (tenant.step state action))
  leaves : ∀ {state} action, sane state → (tenant.writer state).isLent = false →
    Leaves (tenant.writer state) (tenant.writer (tenant.step state action))
  disposes : ∀ {state action}, tenant.isDispose action = true →
    Leaves (tenant.atGrowth state action) (tenant.writer (tenant.step state action)) ∧
      (tenant.writer (tenant.step state action)).isGrown = (tenant.writer state).isGrown

namespace Lawful

variable {tenant} {sane : σ → Prop} (lawful : tenant.Lawful sane)

include lawful

/-- A growth is for good, and comes with an action that needs more memory. -/
theorem isGrown_step {state : σ} (first : sane state) (action : β) :
    (tenant.writer (tenant.step state action)).isGrown = true ↔
      (tenant.writer state).isGrown = true ∨ tenant.Outgrows state action := by
  by_cases before : (tenant.writer state).isGrown = true
  · have leaves := lawful.leaves action first (isLent_of_isGrown before)
    exact iff_of_true (leaves.still_grown before) (.inl before)
  have fresh := Bool.eq_false_iff.2 before
  by_cases outgrown : tenant.Outgrows state action
  · exact iff_of_true (lawful.grows first fresh outgrown).grown (.inr outgrown)
  -- With room enough the memory stays as it is, or goes back, which is no growth.
  have same : (tenant.writer (tenant.step state action)).isGrown =
      (tenant.writer state).isGrown := by
    by_cases given : tenant.isDispose action = true
    · exact (lawful.disposes given).2
    · exact (lawful.stays first fresh outgrown (Bool.eq_false_iff.2 given)).isGrown_eq
  exact iff_of_false (fun grown => before (same.symm.trans grown)) (not_or_intro before outgrown)

theorem isGrown_run (actions : List β) :
    ∀ {state : σ}, sane state →
      ((tenant.writer (tenant.run state actions)).isGrown = true ↔
        (tenant.writer state).isGrown = true ∨ tenant.EverOutgrown state actions) := by
  induction actions with
  | nil =>
    intro state _
    exact (or_iff_left id).symm
  | cons action rest ih =>
    intro state first
    have later := ih (lawful.next action first)
    rw [lawful.isGrown_step first action, or_assoc] at later
    exact later

theorem sane_run (actions : List β) :
    ∀ {state : σ}, sane state → sane (tenant.run state actions) := by
  induction actions with
  | nil =>
    intro state first
    exact first
  | cons action rest ih =>
    intro state first
    exact ih (lawful.next action first)

/-- A run that keeps the memory is carried out in it. -/
theorem stays_run (actions : List β) :
    ∀ {state : σ}, sane state → (tenant.writer state).isGrown = false →
      tenant.KeepsMemory state actions →
        Stays (tenant.writer state) (tenant.writer (tenant.run state actions)) := by
  induction actions with
  | nil =>
    intro state _ _ _
    exact Stays.refl _
  | cons action rest ih =>
    intro state first fresh keeps
    obtain ⟨⟨room, stays⟩, keeps⟩ := keeps
    have stays := lawful.stays first fresh room stays
    exact stays.trans (ih (lawful.next action first) (stays.isGrown_eq.trans fresh) keeps)

/-- No run of a tenant that is not on lent memory changes it. -/
theorem leaves_run (actions : List β) :
    ∀ {state : σ}, sane state → (tenant.writer state).isLent = false →
      Leaves (tenant.writer state) (tenant.writer (tenant.run state actions)) := by
  induction actions with
  | nil =>
    intro state _ left
    exact (Stays.refl _).leaves left
  | cons action rest ih =>
    intro state first left
    have leaves := lawful.leaves action first left
    exact leaves.trans (ih (lawful.next action first) leaves.isLent_eq)

theorem borrows {first : σ} (begins : sane first) (lent : (tenant.writer first).isLent = true) :
    tenant.Borrows first := by
  have fresh : (tenant.writer first).isGrown = false := by
    refine Bool.eq_false_iff.2 fun grown => ?_
    rw [isLent_of_isGrown grown] at lent
    exact nomatch lent
  refine ⟨fun actions => ?_, fun actions keeps => ?_, fun before action after keeps ends => ?_⟩
  · exact (lawful.isGrown_run actions begins).trans (or_iff_right (Bool.eq_false_iff.1 fresh))
  · have stays := lawful.stays_run actions begins fresh keeps
    exact caller_of_isLent (stays.isLent_eq.trans lent)
  · have stays := lawful.stays_run before begins fresh keeps
    have sane := lawful.sane_run before begins
    have still := stays.isGrown_eq.trans fresh
    have fills := lawful.fills action sane still
    have split : tenant.run first (before ++ action :: after) =
        tenant.run (tenant.step (tenant.run first before) action) after := List.foldl_append
    -- Whatever the last action stores in the caller's memory is in it before the action leaves it.
    have leaves : Leaves (tenant.atGrowth (tenant.run first before) action)
        (tenant.writer (tenant.step (tenant.run first before) action)) := by
      rcases ends with outgrown | given
      · exact (lawful.grows sane still outgrown).toLeaves
      · exact (lawful.disposes given).1
    have later := lawful.leaves_run after (lawful.next action sane) leaves.isLent_eq
    rw [split, (leaves.trans later).caller_eq]
    exact caller_of_isLent (fills.isLent_eq.trans (stays.isLent_eq.trans lent))

end Lawful

end Tenant

end PooledBuffers.Writer
