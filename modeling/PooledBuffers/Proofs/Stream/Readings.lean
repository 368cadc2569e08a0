import PooledBuffers.Proofs.Stream.Delivery

/-!
# The calls of a source, one after the other

A source answers each call by what it will do next. What a reader can know of it is the list of its
readings: the room it gave, and what came back.

* `Source.Answers` — readings that follow one another on a source;
* `Source.Answers.calls_eq`, `Source.Answers.delivers` — what they leave behind;
* `Source.Answers.fresh_le` — apart from interruptions, a reply answers at most one of them;
* `Source.read_followedBy` — replies behind those that answer are not seen;
* `Source.upTo` — the beginning of a source that never ends.
-/

namespace PooledBuffers.Stream

/-! ## Readings -/

/-- One call of a source with all that came back. -/
structure Reading where
  room : Nat
  answer : Except IoFault (List UInt8)

namespace Reading

variable (reading : Reading)

/-- The bytes that a call delivered. -/
def bytes : List UInt8 := reading.answer.toOption.getD []

/-- A call that came back without an answer and is to be made again. -/
def interrupted : Bool :=
  match reading.answer with
  | .ok _ => false
  | .error fault => fault.kind = .interrupted

/-- A call after which a reader that wants more goes on. -/
def Continues : Prop := reading.bytes ≠ [] ∨ reading.interrupted = true

/-- The call as the source enters it. -/
def call : ReadCall :=
  { room := reading.room
    outcome := match reading.answer with
      | .ok bytes => .ok bytes.length
      | .error fault => .error fault.kind }

theorem not_continues_nothing (room : Nat) : ¬ Continues ⟨room, .ok []⟩ := by
  rintro (some_bytes | interrupted)
  · exact some_bytes rfl
  · cases interrupted

theorem not_continues_failed (room : Nat) {fault : IoFault} (final : fault.kind ≠ .interrupted) :
    ¬ Continues ⟨room, .error fault⟩ := by
  rintro (some_bytes | interrupted)
  · exact some_bytes rfl
  · exact final (of_decide_eq_true interrupted)

end Reading

/-- The bytes that calls delivered, in their order. -/
def arrived (readings : List Reading) : List UInt8 := readings.flatMap Reading.bytes

theorem arrived_cons (reading : Reading) (readings : List Reading) :
    arrived (reading :: readings) = reading.bytes ++ arrived readings :=
  List.flatMap_cons

/-! ## Sources -/

/-- Some of the replies of a source that never ends. -/
def ReadReply.stretch (replies : Nat → ReadReply) (start count : Nat) : List ReadReply :=
  (List.range count).map fun index => replies (start + index)

/-- A reply that asks to be called again. -/
def ReadReply.interrupts : ReadReply → Bool
  | .data _ | .eof => false
  | .fail fault => fault.kind = .interrupted

namespace Source

variable {source middle rest : Source} {readings : List Reading}

/-- The readings are the next calls of a source, which is left as `rest`. -/
inductive Answers : Source → List Reading → Source → Prop where
  | done {source : Source} : Answers source [] source
  | next {source middle rest : Source} {room : Nat} {answer : Except IoFault (List UInt8)}
      {readings : List Reading} (read : source.read room = (answer, middle))
      (later : Answers middle readings rest) : Answers source (⟨room, answer⟩ :: readings) rest

/-- A source with more replies behind its own. -/
def followedBy (source : Source) (extra : List ReadReply) : Source :=
  { source with replies := source.replies ++ extra }

/-- The number of replies that do not just interrupt. -/
def fresh (source : Source) : Nat := source.replies.countP (!·.interrupts)

theorem Answers.delivers (answers : source.Answers readings rest) :
    source.Delivers (arrived readings) rest := by
  induction answers with
  | done => exact .refl _
  | next read later ih => exact (read_delivers read).trans ih

/-- Every reading is entered among the calls of the source, and nothing else is. -/
theorem Answers.calls_eq (answers : source.Answers readings rest) :
    rest.calls.toList = source.calls.toList ++ readings.map Reading.call := by
  induction answers with
  | done => exact (List.append_nil _).symm
  | @next source middle rest room answer readings read later ih =>
    have entered : middle.calls = source.calls.push (Reading.call ⟨room, answer⟩) := by
      unfold Source.read at read
      obtain ⟨rfl, rfl⟩ := Prod.mk.inj read
      rfl
    rw [ih, entered, Array.toList_push, List.append_assoc]
    rfl

/-- Between two moments a source delivered one list of bytes only. -/
theorem Delivers.bytes_eq {first second : List UInt8} (here : source.Delivers first rest)
    (there : source.Delivers second rest) : first = second :=
  List.append_cancel_right (here.pending_eq.symm.trans there.pending_eq)

/-- A call uses up at most one reply, and none but an interruption if it is interrupted. -/
theorem fresh_read {room : Nat} {answer : Except IoFault (List UInt8)}
    (read : source.read room = (answer, rest)) :
    source.fresh ≤ rest.fresh + [Reading.mk room answer].countP (!·.interrupted) := by
  unfold fresh
  rcases read_cases read with ⟨replies, rfl, none⟩ | ⟨replies, rfl⟩ | ⟨fault, replies, rfl⟩ |
    ⟨bytes, others, replies, rfl, left⟩
  · rw [replies]
    exact Nat.zero_le _
  · rw [replies, List.countP_cons]
    exact Nat.le_refl _
  · rw [replies, List.countP_cons]
    exact Nat.le_of_eq (congrArg _ List.countP_singleton.symm)
  · -- What did not fit into the room stays, as a reply of its own.
    have behind : others.countP (!·.interrupts) ≤ rest.replies.countP (!·.interrupts) := by
      rw [left]
      split
      · exact Nat.le_refl _
      · exact (List.sublist_cons_self _ _).countP_le
    rw [replies, List.countP_cons]
    exact Nat.add_le_add_right behind 1

theorem Answers.fresh_le (answers : source.Answers readings rest) :
    source.fresh ≤ rest.fresh + readings.countP (!·.interrupted) := by
  induction answers with
  | done => exact Nat.le_refl _
  | @next source middle rest room answer readings read later ih =>
    have first := fresh_read read
    have both : (Reading.mk room answer :: readings).countP (!·.interrupted) =
        [Reading.mk room answer].countP (!·.interrupted) +
          readings.countP (!·.interrupted) :=
      @List.countP_append _ _ [_] _
    omega

/-- A call is answered by the first reply, whatever stands behind the others. -/
theorem read_followedBy {room : Nat} {answer : Except IoFault (List UInt8)}
    (read : source.read room = (answer, rest)) (more : source.replies ≠ [])
    (extra : List ReadReply) :
    (source.followedBy extra).read room = (answer, rest.followedBy extra) := by
  obtain ⟨replies, calls⟩ := source
  unfold Source.read at read
  unfold followedBy Source.read
  cases replies with
  | nil => exact absurd rfl more
  | cons reply replies =>
    cases reply with
    | eof =>
      obtain ⟨rfl, rfl⟩ := Prod.mk.inj read
      rfl
    | fail fault =>
      obtain ⟨rfl, rfl⟩ := Prod.mk.inj read
      rfl
    | data bytes =>
      simp only [next, List.cons_append] at read ⊢
      cases left : bytes.drop room with
      | nil =>
        rw [left] at read
        obtain ⟨rfl, rfl⟩ := Prod.mk.inj read
        rfl
      | cons byte kept =>
        rw [left] at read
        obtain ⟨rfl, rfl⟩ := Prod.mk.inj read
        rfl

/-- A call that brings something, or leaves replies, is answered by a reply. -/
theorem replies_ne_nil_of_read {room : Nat} {answer : Except IoFault (List UInt8)}
    (read : source.read room = (answer, rest)) (used : answer ≠ .ok [] ∨ rest.replies ≠ []) :
    source.replies ≠ [] := by
  rcases read_cases read with ⟨-, nothing, none⟩ | ⟨replies, -⟩ | ⟨fault, replies, -⟩ |
    ⟨bytes, others, replies, -, -⟩
  · exact absurd none (used.resolve_left (absurd nothing))
  all_goals
    rw [replies]
    exact List.cons_ne_nil _ _

theorem replies_ne_nil_of_fresh (some_fresh : 0 < source.fresh) : source.replies ≠ [] := by
  intro none
  unfold fresh at some_fresh
  rw [none] at some_fresh
  exact Nat.lt_irrefl 0 some_fresh

/-! ## Sources that never end -/

/-- The first replies of a source that never ends. -/
def upTo (replies : Nat → ReadReply) (count : Nat) : Source :=
  { replies := ReadReply.stretch replies 0 count }

theorem upTo_add (replies : Nat → ReadReply) (count more : Nat) :
    upTo replies (count + more) =
      (upTo replies count).followedBy (ReadReply.stretch replies count more) := by
  unfold upTo followedBy ReadReply.stretch
  rw [List.range_add, List.map_append, List.map_map]
  simp

/-- Where there are interruptions up to some reply only, all others are fresh. -/
theorem le_fresh_upTo {replies : Nat → ReadReply} {bound : Nat}
    (rare : ∀ index, bound ≤ index → (replies index).interrupts = false) (count : Nat) :
    count ≤ (upTo replies count).fresh + bound := by
  unfold upTo fresh ReadReply.stretch
  induction count with
  | zero => exact Nat.zero_le _
  | succ count ih =>
    rw [List.range_succ, List.map_append, List.countP_append]
    by_cases late : bound ≤ count
    · rw [List.map_singleton, Nat.zero_add, List.countP_singleton, rare count late]
      exact Nat.le_trans (Nat.add_le_add_right ih 1) (Nat.le_of_eq (Nat.add_right_comm _ _ _))
    · omega

end Source

end PooledBuffers.Stream
