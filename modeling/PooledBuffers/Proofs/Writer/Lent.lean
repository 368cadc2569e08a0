import PooledBuffers.Proofs.Writer.Tenancy

/-!
# A writer in lent memory

An operation of a writer makes the room that it needs before it stores anything, so that one that
grows the memory stores nothing in the old one. Elements that are appended one by one come to the
growth one by one: those in front of it are stored already.

* `Writer.needed`, `Writer.Outgrows` — the memory that an operation needs, and whether it has it;
* `Writer.stays_room` — what an operation stores, it stores when it has made room;
* `Writer.grows_appendEach` — elements one by one fill the memory before they grow it;
* `Writer.tenant`, `Writer.lawful_tenant` — a writer in memory that its caller lends;
* `Writer.borrows_onMemory` — what it leaves in that memory.
-/

namespace PooledBuffers.Writer

variable {α : Type} [Element α]
variable {writer : Writer α} {pool : Pool α}

/-! ## What an operation needs -/

/-- The end of the memory that an operation needs. A move that is refused needs none. -/
def needed (writer : Writer α) : Action α → Nat
  | .moveWithin start size target _ => writer.moveEnd start size target
  | action => writer.reach action

/-- An operation needs more cells than the memory has. -/
def Outgrows (writer : Writer α) (action : Action α) : Prop :=
  writer.capacity < writer.needed action

instance (writer : Writer α) (action : Action α) : Decidable (writer.Outgrows action) :=
  inferInstanceAs (Decidable (_ < _))

/-- Whether an operation gives the memory back. -/
def Action.isDispose : Action α → Bool
  | .dispose => true
  | _ => false

/-- Whether an operation is made of others, each of which may have too little memory. -/
def Action.isRepeated : Action α → Bool
  | .appendEach _ => true
  | _ => false

omit [Element α] in
theorem Action.eq_dispose {action : Action α} (given : action.isDispose = true) :
    action = .dispose := by
  cases action with
  | dispose => rfl
  | _ => exact nomatch given

omit [Element α] in
theorem Action.eq_appendEach {action : Action α} (repeated : action.isRepeated = true) :
    ∃ run, action = .appendEach run := by
  cases action with
  | appendEach run => exact ⟨run, rfl⟩
  | _ => exact nomatch repeated

/-- The writer when an operation has made the room that it needs. -/
def room (writer : Writer α) (pool : Pool α) : Action α → Writer α × Pool α
  | .append _ => writer.ensureFree 1 pool
  | .appendRun run | .appendEach run => writer.ensureFree run.size pool
  | .acquire count _ _ | .advance count => writer.ensureFree count pool
  | action => writer.ensureCapacity (writer.needed action) pool

theorem room_eq (inside : writer.position ≤ writer.capacity) (action : Action α) (pool : Pool α) :
    writer.room pool action = writer.ensureCapacity (writer.needed action) pool := by
  cases action with
  | append value => exact ensureFree_eq inside 1 pool
  | appendRun run => exact ensureFree_eq inside run.size pool
  | appendEach run => exact ensureFree_eq inside run.size pool
  | acquire count move content => exact ensureFree_eq inside count pool
  | advance count => exact ensureFree_eq inside count pool
  | _ => rfl

theorem leaves_room (left : writer.isLent = false) (action : Action α) (pool : Pool α) :
    Leaves writer (writer.room pool action).1 := by
  cases action with
  | append value => exact leaves_ensureFree left _ pool
  | appendRun run => exact leaves_ensureFree left _ pool
  | appendEach run => exact leaves_ensureFree left _ pool
  | acquire count move content => exact leaves_ensureFree left _ pool
  | advance count => exact leaves_ensureFree left _ pool
  | _ => exact (uses_ensureCapacity writer _ pool).leaves left

/-- Room is made first, and all that an operation stores is stored behind that. -/
theorem stays_room (writer : Writer α) {action : Action α} (single : action.isRepeated = false)
    (stays : action.isDispose = false) (pool : Pool α) :
    Stays (writer.room pool action).1 (writer.perform pool action).2.1 := by
  -- The room of an operation that stores in place, or nothing at all, is what is there.
  have nothing : writer.ensureCapacity 0 pool = (writer, pool) :=
    ensureCapacity_of_le (Nat.zero_le _)
  cases action with
  | append value => exact stays_edit _ (by simp) _
  | appendRun run => exact stays_edit _ (by simp) _
  | appendEach run => cases single
  | acquire count move content => exact stays_edit _ (by simp) _
  | advance count => exact stays_at _ _
  | advanceTo target => exact stays_at _ _
  | moveWithin start size target move =>
    show Stays (writer.ensureCapacity (writer.moveEnd start size target) pool).1 _
    rcases writer.moveWithin_cases start size target move pool with ⟨_, refused, none⟩ |
      ⟨next, done, stays⟩
    · simp only [perform, refused, none, nothing]
      exact Stays.refl writer
    · simp only [perform, done]
      exact stays
  | setPosition position =>
    show Stays (writer.ensureCapacity 0 pool).1 _
    simp only [perform, setPosition, nothing]
    by_cases refused : writer.capacity < position
    · rw [if_pos refused]
      exact Stays.refl writer
    · rw [if_neg refused]
      exact stays_at writer position
  | reset =>
    show Stays (writer.ensureCapacity 0 pool).1 _
    rw [nothing]
    exact stays_at writer 0
  | fill value =>
    show Stays (writer.ensureCapacity 0 pool).1 _
    rw [nothing]
    exact stays_edit writer (by simp) _
  | set index value =>
    show Stays (writer.ensureCapacity 0 pool).1 _
    simp only [perform, set?, nothing]
    by_cases within : index < writer.capacity
    · rw [if_pos within]
      exact stays_edit writer (by simp) _
    · rw [if_neg within]
      exact Stays.refl writer
  | setWritten index value =>
    show Stays (writer.ensureCapacity 0 pool).1 _
    simp only [perform, setWritten?, set?, nothing]
    by_cases written : index < writer.position
    · rw [if_pos written]
      by_cases within : index < writer.capacity
      · rw [if_pos within]
        exact stays_edit writer (by simp) _
      · rw [if_neg within]
        exact Stays.refl writer
    · rw [if_neg written]
      exact Stays.refl writer
  | dispose => cases stays

/-- Where room is not needed the cursor stays in memory. -/
theorem position_le_of_room (inside : writer.position ≤ writer.capacity) {action : Action α}
    (single : action.isRepeated = false) (room : ¬ writer.Outgrows action) (pool : Pool α) :
    (writer.perform pool action).2.1.position ≤ writer.capacity := by
  unfold Outgrows at room
  cases action with
  | append value =>
    have enough : writer.position + 1 ≤ writer.capacity := Nat.not_lt.1 room
    show (writer.append value pool).1.position ≤ _
    rw [append_of_le enough]
    exact enough
  | appendRun run =>
    have enough : writer.position + run.size ≤ writer.capacity := Nat.not_lt.1 room
    show (writer.appendRun run pool).1.position ≤ _
    rw [appendRun_of_le enough]
    exact enough
  | appendEach run => exact nomatch single
  | acquire count move content =>
    have enough : writer.position + count ≤ writer.capacity := Nat.not_lt.1 room
    show (writer.acquire count move content pool).2.1.position ≤ _
    unfold Writer.acquire
    rw [ensureFree_of_le enough]
    show (if move then writer.position + count else writer.position) ≤ _
    split
    · exact enough
    · exact inside
  | advance count =>
    have enough : writer.position + count ≤ writer.capacity := Nat.not_lt.1 room
    show (writer.advance count pool).1.position ≤ _
    unfold Writer.advance
    rw [ensureFree_of_le enough]
    exact enough
  | advanceTo target => exact Nat.not_lt.1 room
  | moveWithin start size target move =>
    have room : ¬ writer.capacity < writer.moveEnd start size target := room
    unfold moveEnd at room
    simp only [perform]
    unfold Writer.moveWithin
    by_cases outside : writer.capacity < start + size
    · rw [if_pos outside]
      exact inside
    rw [if_neg outside] at room ⊢
    by_cases trivially : size = 0 ∨ start = target
    · rw [if_pos trivially]
      exact Nat.le_trans (Nat.le_of_eq (position_ensureCapacity writer target pool)) inside
    rw [if_neg trivially] at room ⊢
    by_cases far : Size.maxCapacity < target + size
    · rw [if_pos far]
      exact inside
    · rw [if_neg far] at room ⊢
      show (if move then target + size else
        (writer.ensureCapacity (target + size) pool).1.position) ≤ _
      rw [position_ensureCapacity]
      split
      · exact Nat.not_lt.1 room
      · exact inside
  | setPosition position =>
    simp only [perform, setPosition]
    by_cases refused : writer.capacity < position
    · rw [if_pos refused]
      exact inside
    · rw [if_neg refused]
      exact Nat.not_lt.1 refused
  | reset => exact Nat.zero_le _
  | fill value => exact inside
  | set index value =>
    simp only [perform, set?]
    by_cases within : index < writer.capacity
    · rw [if_pos within]
      exact inside
    · rw [if_neg within]
      exact inside
  | setWritten index value =>
    simp only [perform, setWritten?, set?]
    by_cases written : index < writer.position
    · rw [if_pos written, if_pos (by omega)]
      exact inside
    · rw [if_neg written]
      exact inside
  | dispose => exact Nat.zero_le _

/-! ## Several elements one by one -/

theorem foldl_append_of_room (run : List α) : ∀ (writer : Writer α) (pool : Pool α),
    writer.position + run.length ≤ writer.capacity →
      Stays writer (run.foldl (fun state value => state.1.append value state.2) (writer, pool)).1 ∧
      (run.foldl (fun state value => state.1.append value state.2) (writer, pool)).1.position =
        writer.position + run.length := by
  induction run with
  | nil =>
    intro writer _ _
    exact ⟨Stays.refl writer, rfl⟩
  | cons value rest ih =>
    intro writer pool room
    rw [List.length_cons] at room
    have first : writer.append value pool = (writer.stamp #[value], pool) :=
      append_of_le (by omega)
    have stays : Stays writer (writer.stamp #[value]) := stays_edit writer (by simp) _
    have stepped : (writer.stamp #[value]).position = writer.position + 1 := rfl
    obtain ⟨later, ends⟩ := ih (writer.stamp #[value]) pool (by rw [stepped, capacity_stamp]; omega)
    rw [List.foldl_cons, first]
    refine ⟨stays.trans later, ?_⟩
    rw [ends, stepped, List.length_cons]
    omega

/-- Once the memory is not the caller's, no element gets into the caller's. -/
theorem leaves_foldl_append (run : List α) : ∀ (writer : Writer α) (pool : Pool α),
    writer.isLent = false →
      Leaves writer
        (run.foldl (fun state value => state.1.append value state.2) (writer, pool)).1 := by
  induction run with
  | nil =>
    intro writer pool left
    exact (Stays.refl writer).leaves left
  | cons value rest ih =>
    intro writer pool left
    have first : Leaves writer (writer.append value pool).1 :=
      (leaves_ensureFree left 1 pool).stays (stays_edit _ (by simp) _)
    exact first.trans (ih _ _ first.isLent_eq)

/-! ## One operation -/

/-- A writer in the state in which an operation comes to need more memory than there is. Elements
that are appended one by one are in memory as far as there is room; any other operation has done
nothing yet. -/
def atGrowth (writer : Writer α) (pool : Pool α) : Action α → Writer α
  | .appendEach run => (writer.appendEach (run.extract 0 writer.freeCapacity) pool).1
  | _ => writer

/-- An operation that finds room stays on the memory. -/
theorem stays_perform (inside : writer.position ≤ writer.capacity) {action : Action α}
    (room : ¬ writer.Outgrows action) (stays : action.isDispose = false) (pool : Pool α) :
    Stays writer (writer.perform pool action).2.1 ∧
      (writer.perform pool action).2.1.position ≤ writer.capacity := by
  by_cases repeated : action.isRepeated = true
  · obtain ⟨run, rfl⟩ := Action.eq_appendEach repeated
    have enough : writer.position + run.toList.length ≤ writer.capacity := Nat.not_lt.1 room
    obtain ⟨stays, ends⟩ := foldl_append_of_room run.toList writer pool enough
    rw [← appendEach_eq_foldl] at stays ends
    refine ⟨stays, ?_⟩
    show (writer.appendEach run pool).1.position ≤ _
    rw [ends]
    exact enough
  · have single := Bool.eq_false_iff.2 repeated
    refine ⟨?_, position_le_of_room inside single room pool⟩
    have made := stays_room writer single stays pool
    rwa [room_eq inside, ensureCapacity_of_le (Nat.not_lt.1 room)] at made

/-- A single operation that does not find room grows the memory before it stores anything. -/
theorem grows_perform_of_single (inside : writer.position ≤ writer.capacity) {action : Action α}
    (single : action.isRepeated = false) (outgrown : writer.Outgrows action) (pool : Pool α) :
    Grows writer (writer.perform pool action).2.1 := by
  have stays : action.isDispose = false := by
    refine Bool.eq_false_iff.2 fun given => ?_
    obtain rfl := Action.eq_dispose given
    exact Nat.not_lt_zero _ outgrown
  have made := stays_room writer single stays pool
  rw [room_eq inside] at made
  exact (grows_ensureCapacity outgrown pool).uses (made.uses 0)

/-- The elements that are appended before the memory grows fit into it. -/
theorem stays_atGrowth (inside : writer.position ≤ writer.capacity) (action : Action α)
    (pool : Pool α) : Stays writer (writer.atGrowth pool action) := by
  cases action with
  | appendEach run =>
    have free : writer.freeCapacity = writer.capacity - writer.position := rfl
    have fits : ¬ writer.Outgrows (.appendEach (run.extract 0 writer.freeCapacity)) := by
      show ¬ writer.capacity < writer.position + (run.extract 0 writer.freeCapacity).size
      rw [Array.size_extract]
      omega
    exact (stays_perform inside fits rfl pool).1
  | _ => exact Stays.refl writer

/-- Elements appended one by one fill the memory, and the next one grows it. -/
theorem grows_appendEach (inside : writer.position ≤ writer.capacity) {run : Array α}
    (outgrown : writer.capacity < writer.position + run.size) (pool : Pool α) :
    Grows (writer.appendEach (run.extract 0 writer.freeCapacity) pool).1
      (writer.appendEach run pool).1 := by
  have free : writer.freeCapacity = writer.capacity - writer.position := rfl
  have parts : run.toList =
      (run.extract 0 writer.freeCapacity).toList ++ run.toList.drop writer.freeCapacity := by
    rw [Array.toList_extract, List.extract_eq_take_drop, List.drop_zero, Nat.sub_zero,
      List.take_append_drop]
  have filled : (run.extract 0 writer.freeCapacity).toList.length = writer.freeCapacity := by
    rw [Array.length_toList, Array.size_extract]
    omega
  obtain ⟨stays, full⟩ :=
    foldl_append_of_room (run.extract 0 writer.freeCapacity).toList writer pool (by omega)
  rw [← appendEach_eq_foldl, filled] at full
  rw [← appendEach_eq_foldl] at stays
  rw [appendEach_eq_foldl writer run, parts, List.foldl_append,
    ← appendEach_eq_foldl writer (run.extract 0 writer.freeCapacity) pool]
  generalize writer.appendEach (run.extract 0 writer.freeCapacity) pool = state at full stays ⊢
  obtain ⟨mid, rest⟩ := state
  -- The memory is full now, and at least one element is still to come.
  have place : mid.position = writer.position + writer.freeCapacity := full
  have same : mid.capacity = writer.capacity := stays.capacity_eq
  cases more : run.toList.drop writer.freeCapacity with
  | nil =>
    have short := List.drop_eq_nil_iff.1 more
    rw [Array.length_toList] at short
    omega
  | cons value others =>
    have beyond : mid.Outgrows (.append value) := show mid.capacity < mid.position + 1 by omega
    have grows : Grows mid (mid.append value rest).1 :=
      grows_perform_of_single (by omega) rfl beyond rest
    exact grows.leaves (leaves_foldl_append others _ (mid.append value rest).2 grows.isLent_eq)

/-- An operation that does not find room grows the memory, and leaves the old memory as it was when
the operation came to that. -/
theorem grows_perform (inside : writer.position ≤ writer.capacity) {action : Action α}
    (outgrown : writer.Outgrows action) (pool : Pool α) :
    Grows (writer.atGrowth pool action) (writer.perform pool action).2.1 := by
  cases action with
  | appendEach run => exact grows_appendEach inside outgrown pool
  | _ => exact grows_perform_of_single inside rfl outgrown pool

/-- Whatever a writer does that is not on lent memory, it leaves the caller's alone. -/
theorem leaves_perform_of_left (left : writer.isLent = false) (action : Action α)
    (pool : Pool α) : Leaves writer (writer.perform pool action).2.1 := by
  by_cases given : action.isDispose = true
  · obtain rfl := Action.eq_dispose given
    exact leaves_dispose writer pool
  by_cases repeated : action.isRepeated = true
  · obtain ⟨run, rfl⟩ := Action.eq_appendEach repeated
    show Leaves writer (writer.appendEach run pool).1
    rw [appendEach_eq_foldl]
    exact leaves_foldl_append run.toList writer pool left
  exact (leaves_room left action pool).stays
    (stays_room writer (Bool.eq_false_iff.2 repeated) (Bool.eq_false_iff.2 given) pool)

/-! ## All operations -/

/-- A writer and its pool, with the operations of writers. -/
def tenant : Tenant α (Writer α × Pool α) (Action α) where
  writer := Prod.fst
  step state action := (state.1.perform state.2 action).2
  Outgrows state action := state.1.Outgrows action
  isDispose := Action.isDispose
  atGrowth state action := state.1.atGrowth state.2 action

instance (state : Writer α × Pool α) (action : Action α) :
    Decidable (tenant.Outgrows state action) :=
  inferInstanceAs (Decidable (state.1.Outgrows action))

/-- A writer that has not grown keeps its cursor in memory. -/
def Sane (state : Writer α × Pool α) : Prop :=
  state.1.isGrown = true ∨ state.1.position ≤ state.1.capacity

omit [Element α] in
theorem Sane.inside {state : Writer α × Pool α} (sane : Sane state)
    (fresh : state.1.isGrown = false) : state.1.position ≤ state.1.capacity :=
  sane.resolve_left (Bool.eq_false_iff.1 fresh)

theorem Sane.perform {state : Writer α × Pool α} (sane : Sane state) (action : Action α) :
    Sane (state.1.perform state.2 action).2 := by
  by_cases grown : state.1.isGrown = true
  · have leaves := leaves_perform_of_left (isLent_of_isGrown grown) action state.2
    exact .inl (leaves.still_grown grown)
  have inside := sane.resolve_left grown
  by_cases outgrown : state.1.Outgrows action
  · exact .inl (grows_perform inside outgrown state.2).grown
  by_cases given : action.isDispose = true
  · obtain rfl := Action.eq_dispose given
    exact .inr (Nat.zero_le _)
  · obtain ⟨stays, cursor⟩ := stays_perform inside outgrown (Bool.eq_false_iff.2 given) state.2
    exact .inr (stays.capacity_eq.symm ▸ cursor)

theorem lawful_tenant : (tenant (α := α)).Lawful Sane where
  next action sane := sane.perform action
  stays sane fresh room stays := (stays_perform (sane.inside fresh) room stays _).1
  fills action sane fresh := stays_atGrowth (sane.inside fresh) action _
  grows sane fresh outgrown := grows_perform (sane.inside fresh) outgrown _
  leaves action _ left := leaves_perform_of_left left action _
  disposes := by
    intro state action given
    obtain rfl := Action.eq_dispose given
    exact ⟨leaves_dispose state.1 state.2, Backing.isGrown_dispose state.1.backing state.2⟩

theorem borrows_onMemory (cells : Array α) (minGrow : Option Nat) (pool : Pool α) :
    tenant.Borrows ({ onMemory cells with minGrow := minGrow }, pool) :=
  lawful_tenant.borrows (.inr (Nat.zero_le _)) rfl

end PooledBuffers.Writer
