import PooledBuffers.Proofs.Stream.Intake
import PooledBuffers.Proofs.Stream.Readings

/-!
# What an inlet demands of its source

An inlet calls its source only while too few bytes are buffered, and lends it what lies behind them
in the chunk, which is never empty. Its loop ends with enough bytes, or with the answer that ended
it; only interruptions can keep it going without any bytes.

* `Inlet.Exchange` — the ways of the loop, by the number of bytes buffered before each reading;
* `Inlet.Exchange.reading`, `Inlet.Exchange.cases_outcome` — each reading, and how the loop ends;
* `Inlet.Demands` — a call, with the readings that it makes;
* `Inlet.ensure_followedBy` — a call does not depend on replies that it has not reached;
* `Inlet.ensure_demands` — in any state and on any source, also on one that never ends.
-/

namespace PooledBuffers.Stream

namespace Inlet

variable {inlet next : Inlet} {needed : Nat}

/-! ## The loop -/

/-- The ways of a loop that reads until `needed` bytes from `start` on are in a chunk of `size`:
from the number of bytes it holds, by the readings it makes, to its outcome. -/
inductive Exchange (start size needed : Nat) :
    Nat → List Reading → Except Error Unit → Prop where
  /-- There is nothing to ask for. -/
  | enough {held : Nat} (reached : needed ≤ held) : Exchange start size needed held [] (.ok ())
  /-- The source says that it is at its end. -/
  | ended {held : Nat} (short : held < needed) :
      Exchange start size needed held [⟨size - (start + held), .ok []⟩]
        (.error (.unexpectedEnd .stream needed held))
  | failed {held : Nat} {fault : IoFault} (short : held < needed)
      (final : fault.kind ≠ .interrupted) :
      Exchange start size needed held [⟨size - (start + held), .error fault⟩]
        (.error (.io "stream read failed" fault))
  | delivered {held : Nat} {bytes : List UInt8} {readings : List Reading}
      {outcome : Except Error Unit} (short : held < needed) (some_bytes : bytes ≠ [])
      (later : Exchange start size needed (held + bytes.length) readings outcome) :
      Exchange start size needed held (⟨size - (start + held), .ok bytes⟩ :: readings) outcome
  | interrupted {held : Nat} {fault : IoFault} {readings : List Reading}
      {outcome : Except Error Unit} (short : held < needed) (again : fault.kind = .interrupted)
      (later : Exchange start size needed held readings outcome) :
      Exchange start size needed held (⟨size - (start + held), .error fault⟩ :: readings) outcome

section Exchange

variable {start size held : Nat} {readings : List Reading} {outcome : Except Error Unit}

/-- What comes behind the first readings of a loop is a loop of its own. -/
theorem Exchange.behind {after : List Reading} (more : after ≠ []) :
    ∀ {held : Nat} {before : List Reading},
      Exchange start size needed held (before ++ after) outcome →
        Exchange start size needed (held + (arrived before).length) after outcome
  | _, [], exchange => exchange
  | held, reading :: before, exchange => by
    rw [arrived_cons, List.length_append, ← Nat.add_assoc]
    rw [List.cons_append] at exchange
    generalize rest : before ++ after = readings at exchange
    cases exchange with
    | ended short => exact absurd (List.append_eq_nil_iff.1 rest).2 more
    | failed short final => exact absurd (List.append_eq_nil_iff.1 rest).2 more
    | delivered short some_bytes later => exact (rest ▸ later).behind more
    | interrupted short again later => exact (rest ▸ later).behind more

/-- Each reading is made for want of bytes, into what lies behind those that are there. Another one
comes after it only if it brought some or was interrupted. -/
theorem Exchange.reading {before : List Reading} {reading : Reading} {after : List Reading}
    (exchange : Exchange start size needed held (before ++ reading :: after) outcome)
    (inside : start + needed ≤ size) :
    held + (arrived before).length < needed ∧ 0 < reading.room ∧
      start + (held + (arrived before).length) + reading.room = size ∧
      (after ≠ [] → reading.Continues) := by
  have here := exchange.behind (List.cons_ne_nil _ _)
  generalize held + (arrived before).length = count at here
  have place (short : count < needed) :
      0 < size - (start + count) ∧ start + count + (size - (start + count)) = size := by omega
  cases here with
  | ended short => exact ⟨short, (place short).1, (place short).2, fun more => absurd rfl more⟩
  | failed short final =>
    exact ⟨short, (place short).1, (place short).2, fun more => absurd rfl more⟩
  | delivered short some_bytes later =>
    exact ⟨short, (place short).1, (place short).2, fun _ => .inl some_bytes⟩
  | interrupted short again later =>
    exact ⟨short, (place short).1, (place short).2, fun _ => .inr (decide_eq_true again)⟩

/-- A loop ends with enough bytes, at the end of the source, or with a failure of it. Only the last
reading can tell, and it does. -/
theorem Exchange.cases_outcome (exchange : Exchange start size needed held readings outcome) :
    (outcome = .ok () ∧ needed ≤ held + (arrived readings).length ∧
      ∀ reading ∈ readings, reading.Continues) ∨
    (outcome = .error (.unexpectedEnd .stream needed (held + (arrived readings).length)) ∧
      held + (arrived readings).length < needed ∧
      ∃ room, readings.getLast? = some ⟨room, .ok []⟩) ∨
    (∃ fault, outcome = .error (.io "stream read failed" fault) ∧ fault.kind ≠ .interrupted ∧
      held + (arrived readings).length < needed ∧
      ∃ room, readings.getLast? = some ⟨room, .error fault⟩) := by
  induction exchange with
  | enough reached => exact .inl ⟨rfl, reached, nofun⟩
  | ended short => exact .inr (.inl ⟨rfl, short, _, rfl⟩)
  | failed short final => exact .inr (.inr ⟨_, rfl, final, short, _, rfl⟩)
  | delivered short some_bytes later ih =>
    rw [arrived_cons, List.length_append, ← Nat.add_assoc, List.getLast?_cons]
    obtain ⟨done, reached, all⟩ | ⟨ended, few, room, last⟩ |
      ⟨fault, failed, final, few, room, last⟩ := ih
    · exact .inl ⟨done, reached, List.forall_mem_cons.2 ⟨.inl some_bytes, all⟩⟩
    · exact .inr (.inl ⟨ended, few, room, by rw [last]; rfl⟩)
    · exact .inr (.inr ⟨fault, failed, final, few, room, by rw [last]; rfl⟩)
  | interrupted short again later ih =>
    rw [List.getLast?_cons]
    obtain ⟨done, reached, all⟩ | ⟨ended, few, room, last⟩ |
      ⟨fault, failed, final, few, room, last⟩ := ih
    · exact .inl ⟨done, reached, List.forall_mem_cons.2 ⟨.inr (decide_eq_true again), all⟩⟩
    · exact .inr (.inl ⟨ended, few, room, by rw [last]; rfl⟩)
    · exact .inr (.inr ⟨fault, failed, final, few, room, by rw [last]; rfl⟩)

/-- Apart from interruptions there is one reading for each byte at most, and one that ends it. -/
theorem Exchange.count_le (exchange : Exchange start size needed held readings outcome) :
    readings.countP (!·.interrupted) ≤ needed - held + 1 := by
  induction exchange with
  | enough reached => exact Nat.zero_le _
  | ended short => exact Nat.le_add_left _ _
  | failed short final =>
    exact Nat.le_trans List.countP_le_length (Nat.le_add_left _ _)
  | @delivered held bytes readings outcome short some_bytes later ih =>
    have longer := List.length_pos_iff.2 some_bytes
    rw [List.countP_cons_of_pos rfl]
    omega
  | interrupted short again later ih =>
    rwa [List.countP_cons_of_neg]
    simpa [Reading.interrupted] using again

end Exchange

/-! ## Calls -/

/-- A chunk ends where the room behind its bytes does. -/
theorem Sound.room_eq (sound : inlet.Sound) :
    inlet.chunkSize - inlet.stop = inlet.chunkSize - (inlet.start + inlet.available) := by
  have order := sound.start_le
  unfold available
  omega

/-- The loop of an inlet is an exchange with its source. -/
theorem refill_exchange (sound : inlet.Sound) (needed : Nat) :
    ∃ readings, inlet.source.Answers readings (inlet.refill needed).2.source ∧
      Exchange inlet.start inlet.chunkSize needed inlet.available readings
        (inlet.refill needed).1 ∧
      (inlet.refill needed).2.start = inlet.start := by
  fun_induction refill inlet needed with
  | case1 inlet enough => exact ⟨[], .done, .enough enough, rfl⟩
  | case2 inlet short source read =>
    refine ⟨_, .next read .done, ?_, rfl⟩
    rw [sound.room_eq]
    exact .ended (Nat.lt_of_not_le short)
  | case3 inlet short byte rest source read _ run ih =>
    have more := filled_deliver sound read
    obtain ⟨readings, answers, exchange, start_eq⟩ := ih more.sound
    have longer : (inlet.deliver run source).available =
        inlet.available + (byte :: rest).length := by
      have order := sound.start_le
      show inlet.stop + run.size - inlet.start = inlet.stop - inlet.start + _
      rw [List.size_toArray]
      omega
    refine ⟨_, .next read answers, ?_, start_eq⟩
    rw [sound.room_eq]
    refine .delivered (Nat.lt_of_not_le short) (List.cons_ne_nil _ _) ?_
    rw [← longer, ← inlet.chunkSize_deliver run source]
    exact exchange
  | case4 inlet short fault source read _ interrupted ih =>
    obtain ⟨readings, answers, exchange, start_eq⟩ := ih { sound with }
    refine ⟨_, .next read answers, ?_, start_eq⟩
    rw [sound.room_eq]
    exact .interrupted (Nat.lt_of_not_le short) interrupted exchange
  | case5 inlet short fault source read _ failed =>
    refine ⟨_, .next read .done, ?_, rfl⟩
    rw [sound.room_eq]
    exact .failed (Nat.lt_of_not_le short) failed

/-- A call that buffers, with the readings that it makes of its source. -/
structure Demands (inlet : Inlet) (needed : Nat) (readings : List Reading)
    (outcome : Except Error Unit) (next : Inlet) : Prop where
  /-- These are the calls that the source is given, and what it answers. -/
  answers : inlet.source.Answers readings next.source
  calls_eq : next.source.calls.toList = inlet.source.calls.toList ++ readings.map Reading.call
  /-- Nothing that was there is overwritten, and what arrives goes behind it. -/
  buffered_eq : next.buffered.toList = inlet.buffered.toList ++ arrived readings
  refused_iff : (∃ requested capacity, outcome = .error (.capacityExceeded requested capacity)) ↔
    inlet.chunkSize < needed
  /-- A call for more than the chunk can hold does not touch the source. -/
  refused : inlet.chunkSize < needed →
    outcome = .error (.capacityExceeded needed inlet.chunkSize) ∧ next = inlet ∧ readings = []
  /-- Each reading is made for want of bytes, into the room behind those that are there. Another
  one comes after it only if it brought some or was interrupted. -/
  reading : ∀ {before reading after}, readings = before ++ reading :: after →
    inlet.available + (arrived before).length < needed ∧ 0 < reading.room ∧
      next.start + (inlet.available + (arrived before).length) + reading.room =
        inlet.chunkSize ∧
      (after ≠ [] → reading.Continues)
  ok_iff : outcome = .ok () ↔ needed ≤ next.available
  failed_iff : ∀ text fault, outcome = .error (.io text fault) ↔
    text = "stream read failed" ∧ fault.kind ≠ .interrupted ∧
      ∃ room, readings.getLast? = some ⟨room, .error fault⟩
  ended_iff : ∀ medium wanted seen, outcome = .error (.unexpectedEnd medium wanted seen) ↔
    medium = .stream ∧ wanted = needed ∧ seen = next.available ∧
      ∃ room, readings.getLast? = some ⟨room, .ok []⟩
  /-- Only interruptions can make the readings many. -/
  count_le : readings.countP (!·.interrupted) ≤ needed - inlet.available + 1

theorem Exchange.demands {readings : List Reading} {outcome : Except Error Unit}
    (sound : inlet.Sound) (filled : Filled inlet (arrived readings) next)
    (answers : inlet.source.Answers readings next.source)
    (exchange : Exchange next.start inlet.chunkSize needed inlet.available readings outcome)
    (inside : next.start + needed ≤ inlet.chunkSize) :
    Demands inlet needed readings outcome next := by
  have total : next.available = inlet.available + (arrived readings).length := by
    have lengths := congrArg List.length filled.buffered_eq
    rwa [List.length_append, Array.length_toList, Array.length_toList, sound.size_buffered,
      filled.sound.size_buffered] at lengths
  have ways := exchange.cases_outcome
  rw [← total] at ways
  have fits : ¬ inlet.chunkSize < needed := by omega
  refine
    { answers := answers
      calls_eq := answers.calls_eq
      buffered_eq := filled.buffered_eq
      refused_iff := ⟨?_, fun beyond => absurd beyond fits⟩
      refused := fun beyond => absurd beyond fits
      reading := fun split => (split ▸ exchange).reading inside
      ok_iff := ?_
      failed_iff := fun text fault => ?_
      ended_iff := fun medium wanted seen => ?_
      count_le := exchange.count_le }
  · rintro ⟨requested, capacity, refused⟩
    rcases ways with ⟨rfl, -⟩ | ⟨rfl, -⟩ | ⟨fault, rfl, -⟩ <;> cases refused
  · rcases ways with ⟨rfl, reached, -⟩ | ⟨rfl, few, -⟩ | ⟨fault, rfl, -, few, -⟩
    · exact ⟨fun _ => reached, fun _ => rfl⟩
    · exact ⟨nofun, fun reached => absurd reached (Nat.not_le.2 few)⟩
    · exact ⟨nofun, fun reached => absurd reached (Nat.not_le.2 few)⟩
  · rcases ways with ⟨rfl, -, all⟩ | ⟨rfl, -, room, last⟩ | ⟨other, rfl, final, -, room, last⟩
    · refine ⟨nofun, fun ⟨_, final, room, last⟩ => ?_⟩
      exact absurd (all _ (List.mem_of_getLast? last)) (Reading.not_continues_failed room final)
    · refine ⟨nofun, fun ⟨_, _, room, other⟩ => ?_⟩
      rw [last] at other
      cases other
    · refine ⟨fun failed => ?_, fun ⟨text_eq, _, room, same⟩ => ?_⟩
      · cases failed
        exact ⟨rfl, final, room, last⟩
      · rw [last] at same
        cases same
        rw [text_eq]
  · rcases ways with ⟨rfl, -, all⟩ | ⟨rfl, -, room, last⟩ | ⟨other, rfl, final, -, room, last⟩
    · refine ⟨nofun, fun ⟨_, _, _, room, last⟩ => ?_⟩
      exact absurd (all _ (List.mem_of_getLast? last)) (Reading.not_continues_nothing room)
    · refine ⟨fun ended => ?_, fun ⟨medium_eq, wanted_eq, seen_eq, _⟩ => ?_⟩
      · cases ended
        exact ⟨rfl, rfl, rfl, room, last⟩
      · rw [medium_eq, wanted_eq, seen_eq]
    · refine ⟨nofun, fun ⟨_, _, _, room, other⟩ => ?_⟩
      rw [last] at other
      cases other

/-- A call for more than the chunk can hold makes no readings. -/
theorem demands_of_long (sound : inlet.Sound) (long : inlet.chunkSize < needed) :
    Demands inlet needed [] (.error (.capacityExceeded needed inlet.chunkSize)) inlet where
  answers := .done
  calls_eq := (List.append_nil _).symm
  buffered_eq := (List.append_nil _).symm
  refused_iff := ⟨fun _ => long, fun _ => ⟨_, _, rfl⟩⟩
  refused := fun _ => ⟨rfl, rfl, rfl⟩
  reading := by simp
  ok_iff := by
    have stop := sound.stop_le
    refine ⟨nofun, fun reached => ?_⟩
    unfold available at reached
    omega
  failed_iff := by simp
  ended_iff := by simp
  count_le := Nat.zero_le _

/-- A loop that starts where the same bytes are buffered, with room for what they lack. -/
theorem refill_demands {middle : Inlet} (sound : inlet.Sound) (moved : Filled inlet [] middle)
    (source_eq : middle.source = inlet.source)
    (inside : middle.start + needed ≤ inlet.chunkSize) :
    ∃ readings,
      Demands inlet needed readings (middle.refill needed).1 (middle.refill needed).2 := by
  obtain ⟨readings, answers, exchange, start_eq⟩ := refill_exchange moved.sound needed
  obtain ⟨bytes, filled⟩ := refill_filled moved.sound needed
  obtain rfl := filled.delivers.bytes_eq answers.delivers
  have same : middle.available = inlet.available := by
    have bytes_eq := moved.buffered_eq
    rw [List.append_nil, Array.toList_inj] at bytes_eq
    rw [← moved.sound.size_buffered, bytes_eq, sound.size_buffered]
  rw [← start_eq] at exchange inside
  rw [same, moved.chunkSize_eq] at exchange
  exact ⟨readings, exchange.demands sound (moved.trans filled) (source_eq ▸ answers) inside⟩

theorem exists_demands (sound : inlet.Sound) (needed : Nat) :
    ∃ readings, Demands inlet needed readings (inlet.ensure needed).1 (inlet.ensure needed).2 := by
  have order := sound.start_le
  have stop := sound.stop_le
  unfold ensure
  by_cases enough : needed ≤ inlet.available
  · have inside : inlet.start + needed ≤ inlet.chunkSize := by
      unfold available at enough
      omega
    rw [if_pos enough]
    exact ⟨[], Exchange.demands sound (.refl sound) .done (.enough enough) inside⟩
  rw [if_neg enough]
  by_cases long : inlet.chunkSize < needed
  · rw [if_pos long]
    exact ⟨[], demands_of_long sound long⟩
  rw [if_neg long]
  split
  · -- The rest of the chunk is too short, but all of it is long enough.
    refine refill_demands sound (filled_compact sound) rfl ?_
    show 0 + needed ≤ inlet.chunkSize
    omega
  · refine refill_demands sound (.refl sound) rfl ?_
    unfold available at *
    omega

/-! ## Sources that never end -/

/-- An inlet whose source has more replies behind its own. -/
def followedBy (inlet : Inlet) (extra : List ReadReply) : Inlet :=
  { inlet with source := inlet.source.followedBy extra }

/-- One round of the loop, by the answer that it gets. -/
theorem refill_of_read (inlet : Inlet) {source : Source} {answer : Except IoFault (List UInt8)}
    (short : ¬ needed ≤ inlet.available)
    (read : inlet.source.read (inlet.chunkSize - inlet.stop) = (answer, source)) :
    inlet.refill needed =
      match answer with
      | .ok [] =>
        (.error (.unexpectedEnd .stream needed inlet.available), { inlet with source := source })
      | .ok (byte :: rest) => (inlet.deliver (byte :: rest).toArray source).refill needed
      | .error fault =>
        if fault.kind = .interrupted then ({ inlet with source := source } : Inlet).refill needed
        else (.error (.io "stream read failed" fault), { inlet with source := source }) := by
  rw [refill, if_neg short]
  split
  all_goals
    rename_i answered
    rw [read] at answered
    obtain ⟨rfl, rfl⟩ := Prod.mk.inj answered
    rfl

/-- A loop that does not come to the last reply of its source does not depend on what is behind
it. -/
theorem refill_followedBy (needed : Nat) (left : (inlet.refill needed).2.source.replies ≠ [])
    (extra : List ReadReply) :
    (inlet.followedBy extra).refill needed =
      ((inlet.refill needed).1, (inlet.refill needed).2.followedBy extra) := by
  fun_induction refill inlet needed with
  | case1 inlet enough =>
    rw [refill]
    exact if_pos enough
  | case2 inlet short source read =>
    have more := Source.replies_ne_nil_of_read read (.inr left)
    exact refill_of_read (inlet.followedBy extra) short (Source.read_followedBy read more extra)
  | case3 inlet short byte rest source read _ run ih =>
    have more := Source.replies_ne_nil_of_read read (.inl (by simp))
    rw [refill_of_read (inlet.followedBy extra) short (Source.read_followedBy read more extra)]
    exact ih left
  | case4 inlet short fault source read _ interrupted ih =>
    have more := Source.replies_ne_nil_of_read read (.inl (by simp))
    rw [refill_of_read (inlet.followedBy extra) short (Source.read_followedBy read more extra)]
    exact (if_pos interrupted).trans (ih left)
  | case5 inlet short fault source read _ failed =>
    have more := Source.replies_ne_nil_of_read read (.inl (by simp))
    rw [refill_of_read (inlet.followedBy extra) short (Source.read_followedBy read more extra)]
    exact if_neg failed

/-- Nor does a call. -/
theorem ensure_followedBy (needed : Nat) (left : (inlet.ensure needed).2.source.replies ≠ [])
    (extra : List ReadReply) :
    (inlet.followedBy extra).ensure needed =
      ((inlet.ensure needed).1, (inlet.ensure needed).2.followedBy extra) := by
  unfold ensure at left ⊢
  by_cases enough : needed ≤ inlet.available
  · rw [if_pos enough]
    exact if_pos enough
  rw [if_neg enough] at left ⊢
  refine (if_neg enough).trans ?_
  by_cases long : inlet.chunkSize < needed
  · rw [if_pos long]
    exact if_pos long
  rw [if_neg long] at left ⊢
  refine (if_neg long).trans ?_
  by_cases tight : inlet.chunkSize - inlet.stop < needed - inlet.available
  · rw [if_pos tight] at left ⊢
    exact (if_pos tight).trans (refill_followedBy needed left extra)
  · rw [if_neg tight] at left ⊢
    exact (if_neg tight).trans (refill_followedBy needed left extra)

/-- The number of bytes that a call wants to be buffered. -/
def Action.wanted : Action → Nat
  | ensure count => count
  | take count => count
  | takeByte => 1

/-- What a call does once it has tried to buffer what it wants. -/
def Action.finish (action : Action) :
    Except Error Unit × Inlet → Except Error (Array UInt8) × Inlet
  | (.error e, inlet) => (.error e, inlet)
  | (.ok (), inlet) =>
    match action with
    | ensure _ => (.ok #[], inlet)
    | take count =>
      (.ok (inlet.chunk.physical.extract inlet.start (inlet.start + count)),
        { inlet with start := inlet.start + count, consumed := inlet.consumed + count })
    | takeByte =>
      (.ok #[inlet.chunk.physical.getD inlet.start 0],
        { inlet with start := inlet.start + 1, consumed := inlet.consumed + 1 })

theorem perform_eq (inlet : Inlet) (action : Action) :
    inlet.perform action = action.finish (inlet.ensure action.wanted) := by
  cases action with
  | ensure count =>
    simp only [perform, Action.wanted]
    rcases inlet.ensure count with ⟨_ | _, next⟩ <;> rfl
  | take count =>
    simp only [perform, take, Action.wanted]
    rcases inlet.ensure count with ⟨_ | _, next⟩ <;> rfl
  | takeByte =>
    simp only [perform, takeByte, Action.wanted]
    rcases inlet.ensure 1 with ⟨_ | _, next⟩ <;> rfl

/-- Only the part of a call that buffers bytes touches the source. -/
theorem source_perform (inlet : Inlet) (action : Action) :
    (inlet.perform action).2.source = (inlet.ensure action.wanted).2.source := by
  rw [perform_eq]
  rcases inlet.ensure action.wanted with ⟨_ | _, next⟩
  · rfl
  · cases action <;> rfl

theorem perform_followedBy (action : Action)
    (left : (inlet.perform action).2.source.replies ≠ []) (extra : List ReadReply) :
    (inlet.followedBy extra).perform action =
      ((inlet.perform action).1, (inlet.perform action).2.followedBy extra) := by
  rw [source_perform] at left
  rw [perform_eq, perform_eq, ensure_followedBy action.wanted left extra]
  rcases inlet.ensure action.wanted with ⟨_ | _, next⟩
  · rfl
  · cases action <;> rfl

/-- A call uses up at most one fresh reply for each byte that it wants, and one to end it. -/
theorem fresh_perform (sound : inlet.Sound) (action : Action) :
    inlet.source.fresh ≤ (inlet.perform action).2.source.fresh + (action.wanted + 1) := by
  rw [source_perform]
  obtain ⟨readings, demands⟩ := exists_demands sound action.wanted
  have used := demands.answers.fresh_le
  have few := demands.count_le
  omega

/-- The number of fresh replies that a run of calls uses up at most. -/
def appetite : List Action → Nat
  | [] => 0
  | action :: rest => action.wanted + 1 + appetite rest

theorem run_followedBy (extra : List ReadReply) (actions : List Action) :
    ∀ {inlet : Inlet}, inlet.Sound → appetite actions < inlet.source.fresh →
      run (inlet.followedBy extra) actions = (run inlet actions).followedBy extra ∧
        inlet.source.fresh ≤ (run inlet actions).source.fresh + appetite actions := by
  induction actions with
  | nil =>
    intro inlet _ _
    exact ⟨rfl, Nat.le_refl _⟩
  | cons action rest ih =>
    intro inlet sound enough
    have used := fresh_perform sound action
    unfold appetite at enough ⊢
    obtain ⟨⟨arrived, served⟩, -⟩ := perform_spec sound action
    obtain ⟨same, left⟩ := ih served.sound (by omega)
    have more := Source.replies_ne_nil_of_fresh
      (Nat.zero_lt_of_lt (by omega : appetite rest < (inlet.perform action).2.source.fresh))
    unfold run
    rw [perform_followedBy action more extra]
    exact ⟨same, by omega⟩

/-- On a source that never ends, with a last interruption, a call ends before some reply, and all
that it does is the same from there on. -/
theorem ensure_upTo (sound : inlet.Sound) {replies : Nat → ReadReply} {bound : Nat}
    (rare : ∀ index, bound ≤ index → (replies index).interrupts = false) (actions : List Action)
    (needed : Nat) :
    ∃ enough, ∀ more,
      let within (count : Nat) :=
        (run { inlet with source := .upTo replies count } actions).ensure needed
      (within enough).2.source.replies ≠ [] ∧
        within (enough + more) = ((within enough).1, (within enough).2.followedBy
          (ReadReply.stretch replies enough more)) := by
  refine ⟨bound + (appetite actions + needed + 2), fun more => ?_⟩
  generalize size : bound + (appetite actions + needed + 2) = enough
  intro within
  have many := Source.le_fresh_upTo rare enough
  let start : Inlet := { inlet with source := .upTo replies enough }
  have here : start.Sound := { sound with }
  obtain ⟨same, spent⟩ := run_followedBy (ReadReply.stretch replies enough more) actions here
    (show appetite actions < (Source.upTo replies enough).fresh by omega)
  obtain ⟨arrived, served⟩ := run_spec actions here
  have used := fresh_perform served.sound (.ensure needed)
  rw [source_perform] at used
  have left : (within enough).2.source.replies ≠ [] := by
    refine Source.replies_ne_nil_of_fresh ?_
    have total : (Source.upTo replies enough).fresh ≤
        (within enough).2.source.fresh + (needed + 1) + appetite actions :=
      Nat.le_trans spent (Nat.add_le_add_right used _)
    omega
  refine ⟨left, ?_⟩
  show (run { inlet with source := .upTo replies (enough + more) } actions).ensure needed = _
  rw [Source.upTo_add]
  exact (congrArg (·.ensure needed) same).trans (ensure_followedBy needed left _)

/-- In any state that an inlet can be in and whatever its source does, a call refuses what the chunk
cannot hold, and otherwise reads only while too few bytes are buffered, into room behind them that
is not empty. It succeeds exactly when there are enough, passes on what fails, and is at the end
only if the source says so, with all bytes buffered that were delivered and not handed out. Where
the source interrupts it finitely often, it comes to an end. -/
theorem ensure_demands (source : Source) {config : Config} {pool : Pool UInt8}
    (positive : 1 ≤ config.chunkSize) (reachable : pool.Reachable) (actions : List Action)
    (needed : Nat) :
    ∃ first rest, ofConfig source config pool = .ok (first, rest) ∧
      let last := run first actions
      let next := (last.ensure needed).2
      last.chunkSize = config.chunkSize ∧
      (∃ readings, Demands last needed readings (last.ensure needed).1 next) ∧
      (∃ delivered, source.Delivers delivered next.source ∧
        handedAll first actions ++ next.buffered.toList = delivered ∧
        next.buffered.size = next.available) ∧
      ∀ (replies : Nat → ReadReply) (bound : Nat),
        (∀ index, bound ≤ index → (replies index).interrupts = false) →
          ∃ enough, ∀ more,
            let within (count : Nat) :=
              (run { first with source := .upTo replies count } actions).ensure needed
            (within enough).2.source.replies ≠ [] ∧
              within (enough + more) = ((within enough).1, (within enough).2.followedBy
                (ReadReply.stretch replies enough more)) := by
  obtain ⟨first, rest, made, start, source_eq, chunkSize, ahead, -⟩ :=
    sound_ofConfig source positive reachable.sound
  have nothing : first.buffered.toList = [] := by
    rw [Inlet.ahead, source_eq] at ahead
    exact List.append_left_eq_self.1 ahead
  obtain ⟨before, served⟩ := run_spec actions start
  obtain ⟨⟨after, filled⟩, -⟩ := ensure_spec served.sound needed
  refine ⟨first, rest, made, served.chunkSize_eq.trans chunkSize,
    exists_demands served.sound needed, ⟨before ++ after, ?_, ?_, filled.sound.size_buffered⟩,
    fun replies bound rare => ensure_upTo start rare actions needed⟩
  · exact source_eq ▸ served.delivers.trans filled.delivers
  · rw [filled.buffered_eq, ← List.append_assoc, served.buffered_eq, nothing, List.nil_append]

/-- Two bytes are handed out and one is left, with room for one more behind it: it is moved to the
front, and the source is asked for two in vain, with an interruption in between. On a source that
delivers one byte at a time for ever the same call ends. -/
theorem ensure_demands_moved :
    let source : Source :=
      { replies := [.data [1, 2, 3], .fail ⟨.interrupted, none⟩, .data [4], .eof] }
    (Pool.standard : Pool UInt8).Reachable ∧
      ∃ first rest, ofConfig source ⟨4⟩ Pool.standard = .ok (first, rest) ∧
        let last := run first [.take 2]
        (∃ readings, Demands last 3 readings (last.ensure 3).1 (last.ensure 3).2 ∧
          readings.map Reading.room = [3, 3, 2]) ∧
        (last.ensure 3).1.isOk = false ∧ (last.ensure 3).2.available = 2 ∧
        ∃ enough, ∀ more,
          (((run { first with source := .upTo (fun _ => .data [7]) (enough + more) }
            [.take 2]).ensure 3).2.source.replies ≠ []) := by
  intro source
  obtain ⟨first, rest, made, -, ⟨readings, demands⟩, -, endless⟩ :=
    ensure_demands source (by decide : 1 ≤ (Config.mk 4).chunkSize) Pool.reachable_standard
      [.take 2] 3
  have made_eq : ofValid source ⟨4⟩ Pool.standard = (first, rest) := Except.ok.inj made
  obtain rfl := congrArg Prod.fst made_eq
  refine ⟨Pool.reachable_standard, _, rest, made, ⟨readings, demands, ?_⟩, by decide +kernel,
    by decide +kernel, ?_⟩
  · have rooms := congrArg (List.map ReadCall.room) demands.calls_eq
    rw [List.map_append, List.map_map] at rooms
    have before : (run (ofValid source ⟨4⟩ Pool.standard).1 [.take 2]).source.calls.toList.map
        ReadCall.room = [4] := by decide +kernel
    have after : ((run (ofValid source ⟨4⟩ Pool.standard).1
        [.take 2]).ensure 3).2.source.calls.toList.map ReadCall.room = [4, 3, 3, 2] := by
      decide +kernel
    rw [before, after] at rooms
    exact (List.cons.inj rooms).2.symm
  · obtain ⟨enough, ends⟩ := endless (fun _ => .data [7]) 0 fun _ _ => rfl
    refine ⟨enough, fun more => ?_⟩
    obtain ⟨left, same⟩ := ends more
    have same_next := congrArg Prod.snd same
    simp only at same_next left
    rw [same_next]
    exact List.append_ne_nil_of_left_ne_nil left _

end Inlet

end PooledBuffers.Stream
