import PooledBuffers.Proofs.Writer.Memory
import PooledBuffers.Stream.Inlet

/-!
# No byte is lost between a source and its inlet

The bytes ahead of an inlet are those it has buffered and behind them those that its source has yet
to deliver. Reading more moves bytes from the second part to the first; only handing bytes out
takes any away.

* `Source.read_spec`, `Source.Delivers` — one read, and all reads between two moments, whatever the
  source does;
* `Inlet.Filled` — an inlet before and after it buffered the bytes that arrived;
* `Inlet.Kept` — more was buffered perhaps, but the same bytes are ahead;
* `Inlet.ensure_spec`, `Inlet.ensure_complete` — any source, and one that delivers all it has;
* `Inlet.take_complete`, `Inlet.takeByte_complete` — what is handed out is what was ahead.
-/

namespace PooledBuffers.Stream

/-! ## Bytes in front of a reader -/

/-- The next bytes of a sequence, all of them or none, and what is left of it. -/
def cut (medium : Medium) (count : Nat) (ahead : List UInt8) :
    Except Error (Array UInt8) × List UInt8 :=
  if count ≤ ahead.length then (.ok (ahead.take count).toArray, ahead.drop count)
  else (.error (.unexpectedEnd medium count ahead.length), ahead)

/-- The next byte of a sequence, and what is left of it. -/
def cutByte (medium : Medium) : List UInt8 → Except Error UInt8 × List UInt8
  | [] => (.error (.unexpectedEnd medium 1 0), [])
  | byte :: rest => (.ok byte, rest)

/-! ## Sources -/

/-- The bytes that a reply will deliver. -/
def ReadReply.bytes : ReadReply → List UInt8
  | data bytes => bytes
  | eof | fail _ => []

/-- A reply that delivers something or asks to be read again. -/
def ReadReply.Steady : ReadReply → Prop
  | data bytes => bytes ≠ []
  | eof => False
  | fail fault => fault.kind = .interrupted

/-- A reply that says that the source is at its end. -/
def ReadReply.Ends : ReadReply → Prop
  | data bytes => bytes = []
  | eof => True
  | fail _ => False

/-- The number of bytes that a call delivered. -/
def ReadCall.count (call : ReadCall) : Nat :=
  match call.outcome with
  | .ok count => count
  | .error _ => 0

namespace Source

/-- The bytes that a source has yet to deliver. -/
def pending (source : Source) : List UInt8 := source.replies.flatMap ReadReply.bytes

/-- The number of bytes delivered by all calls so far. -/
def delivered (source : Source) : Nat :=
  source.calls.foldl (fun count call => count + call.count) 0

/-- Between two moments a source delivered these bytes: they were the first ones pending, and its
calls count as many. -/
structure Delivers (source : Source) (bytes : List UInt8) (rest : Source) : Prop where
  pending_eq : source.pending = bytes ++ rest.pending
  delivered_eq : rest.delivered = source.delivered + bytes.length

/-- A source that delivers bytes until it has none left, in runs of any length and with any
interruptions between them. -/
def Steady (source : Source) : Prop := ∀ reply ∈ source.replies, reply.Steady

/-- Replies that say they are at their end only when no bytes are left, and fail only to be asked
again. -/
def CompleteReplies : List ReadReply → Prop
  | [] => True
  | reply :: rest =>
    (reply.Steady ∨ (reply.Ends ∧ rest.flatMap ReadReply.bytes = [])) ∧ CompleteReplies rest

/-- A source that delivers all it has, in runs of any length and with any interruptions between
them, and may say any number of times that it is at its end when it is. -/
def Complete (source : Source) : Prop := CompleteReplies source.replies

theorem Steady.complete {source : Source} (steady : source.Steady) : source.Complete := by
  unfold Steady at steady
  unfold Complete
  generalize source.replies = replies at steady
  induction replies with
  | nil => trivial
  | cons reply rest ih =>
    rw [List.forall_mem_cons] at steady
    exact ⟨.inl steady.1, ih steady.2⟩

theorem Delivers.refl (source : Source) : source.Delivers [] source := ⟨rfl, rfl⟩

theorem Delivers.trans {source middle rest : Source} {first second : List UInt8}
    (before : source.Delivers first middle) (after : middle.Delivers second rest) :
    source.Delivers (first ++ second) rest where
  pending_eq := by rw [before.pending_eq, after.pending_eq, List.append_assoc]
  delivered_eq := by
    rw [after.delivered_eq, before.delivered_eq, List.length_append, Nat.add_assoc]

variable {source rest : Source} {room : Nat} {outcome : Except IoFault (List UInt8)}

/-- What a read does, by the next reply. -/
theorem read_cases (h : source.read room = (outcome, rest)) :
    (source.replies = [] ∧ outcome = .ok [] ∧ rest.replies = []) ∨
    (source.replies = .eof :: rest.replies ∧ outcome = .ok []) ∨
    (∃ fault, source.replies = .fail fault :: rest.replies ∧ outcome = .error fault) ∨
    ∃ bytes others, source.replies = .data bytes :: others ∧ outcome = .ok (bytes.take room) ∧
      rest.replies =
        if bytes.drop room = [] then others else .data (bytes.drop room) :: others := by
  obtain ⟨replies, calls⟩ := source
  unfold read at h
  cases replies with
  | nil =>
    obtain ⟨rfl, rfl⟩ := Prod.mk.inj h
    exact .inl ⟨rfl, rfl, rfl⟩
  | cons reply replies =>
    cases reply with
    | eof =>
      obtain ⟨rfl, rfl⟩ := Prod.mk.inj h
      exact .inr (.inl ⟨rfl, rfl⟩)
    | fail fault =>
      obtain ⟨rfl, rfl⟩ := Prod.mk.inj h
      exact .inr (.inr (.inl ⟨fault, rfl, rfl⟩))
    | data bytes =>
      refine .inr (.inr (.inr ⟨bytes, replies, rfl, ?_⟩))
      simp only [next] at h
      cases left : bytes.drop room with
      | nil =>
        rw [left] at h
        obtain ⟨rfl, rfl⟩ := Prod.mk.inj h
        exact ⟨rfl, rfl⟩
      | cons byte kept =>
        rw [left] at h
        obtain ⟨rfl, rfl⟩ := Prod.mk.inj h
        exact ⟨rfl, rfl⟩

/-- A read delivers from the front of what is pending, and nothing where it fails. -/
theorem read_spec (h : source.read room = (outcome, rest)) :
    match outcome with
    | .ok bytes => bytes.length ≤ room ∧ source.pending = bytes ++ rest.pending
    | .error _ => rest.pending = source.pending := by
  unfold pending
  rcases read_cases h with ⟨replies, rfl, none⟩ | ⟨replies, rfl⟩ | ⟨fault, replies, rfl⟩ |
    ⟨bytes, others, replies, rfl, left⟩
  · simp [replies, none]
  · simp [replies, ReadReply.bytes]
  · simp [replies, ReadReply.bytes]
  · refine ⟨List.length_take_le _ _, ?_⟩
    -- What does not fit into the room stays in front of what is pending.
    have parts := List.take_append_drop room bytes
    rw [replies, left, List.flatMap_cons]
    show bytes ++ _ = _
    split
    · rename_i all
      rw [all, List.append_nil] at parts
      rw [parts]
    · rw [List.flatMap_cons, ← List.append_assoc]
      exact congrArg (· ++ _) parts.symm

/-- A read is entered among the calls with the number of bytes that it answers. -/
theorem delivered_read (source : Source) (room : Nat) :
    (source.read room).2.delivered =
      source.delivered + ((source.read room).1.toOption.getD []).length := by
  unfold read
  rcases next room source.replies with ⟨outcome, replies⟩
  simp only [delivered, Array.foldl_push]
  cases outcome with
  | ok bytes => rfl
  | error fault => rfl

/-- One read delivers what it answers, and nothing where it fails. -/
theorem read_delivers (h : source.read room = (outcome, rest)) :
    source.Delivers (outcome.toOption.getD []) rest := by
  have spec := read_spec h
  have counted := delivered_read source room
  rw [h] at counted
  cases outcome with
  | ok bytes => exact ⟨spec.2, counted⟩
  | error fault => exact ⟨spec.symm, counted⟩

theorem Complete.read (complete : source.Complete) (h : source.read room = (outcome, rest)) :
    rest.Complete := by
  unfold Complete at complete ⊢
  rcases read_cases h with ⟨-, -, none⟩ | ⟨replies, -⟩ | ⟨fault, replies, -⟩ |
    ⟨bytes, others, replies, -, left⟩
  · rw [none]
    trivial
  · rw [replies] at complete
    exact complete.2
  · rw [replies] at complete
    exact complete.2
  · rw [replies] at complete
    rw [left]
    split
    · exact complete.2
    · -- What was kept of a reply for the next read is not empty.
      rename_i more
      exact ⟨.inl more, complete.2⟩

/-- A source that delivers all it has delivers nothing only when it has nothing left, and fails only
to be read again. -/
theorem Complete.read_outcome (complete : source.Complete) (positive : 0 < room)
    (h : source.read room = (outcome, rest)) :
    match outcome with
    | .ok bytes => bytes = [] → source.pending = []
    | .error fault => fault.kind = .interrupted := by
  unfold Complete at complete
  unfold pending
  rcases read_cases h with ⟨replies, rfl, -⟩ | ⟨replies, rfl⟩ | ⟨fault, replies, rfl⟩ |
    ⟨bytes, others, replies, rfl, -⟩
  · intro _
    rw [replies, List.flatMap_nil]
  · rw [replies] at complete
    intro _
    rcases complete.1 with steady | ⟨-, nothing⟩
    · cases steady
    · rw [replies, List.flatMap_cons, nothing]
      rfl
  · rw [replies] at complete
    rcases complete.1 with steady | ⟨ends, -⟩
    · exact steady
    · cases ends
  · rw [replies] at complete
    intro nothing
    have none : bytes = [] := by
      rcases List.take_eq_nil_iff.1 nothing with zero | none
      · omega
      · exact none
    rcases complete.1 with steady | ⟨-, behind⟩
    · exact absurd none steady
    · rw [replies, List.flatMap_cons, behind, List.append_nil]
      exact none

end Source

/-! ## Inlets -/

namespace Inlet

/-- The buffered bytes lie in the chunk. -/
structure Sound (inlet : Inlet) : Prop where
  fits : inlet.chunk.Fits
  start_le : inlet.start ≤ inlet.stop
  stop_le : inlet.stop ≤ inlet.chunkSize

/-- The bytes that an inlet has yet to hand out: those it has, and those its source has. -/
def ahead (inlet : Inlet) : List UInt8 := inlet.buffered.toList ++ inlet.source.pending

/-- The array behind the chunk as a tape. -/
def tape (inlet : Inlet) : Tape UInt8 := Tape.ofArray inlet.chunk.physical

variable {inlet : Inlet}

theorem Sound.stop_le_size (sound : inlet.Sound) : inlet.stop ≤ inlet.chunk.physical.size :=
  Nat.le_trans sound.stop_le sound.fits.length_le

theorem Sound.buffered_eq (sound : inlet.Sound) :
    inlet.buffered = inlet.tape.stretch inlet.start inlet.available := by
  have inside := sound.stop_le_size
  have range : inlet.start + inlet.available = inlet.stop := by
    have order := sound.start_le
    unfold available
    omega
  rw [tape, ← Tape.extract_eq_stretch (by omega), range, buffered]

theorem Sound.size_buffered (sound : inlet.Sound) : inlet.buffered.size = inlet.available := by
  rw [sound.buffered_eq, Tape.size_stretch]

theorem Sound.length_ahead (sound : inlet.Sound) :
    inlet.ahead.length = inlet.available + inlet.source.pending.length := by
  rw [ahead, List.length_append, Array.length_toList, sound.size_buffered]

/-- The bytes in front of those ahead are the first buffered ones. -/
theorem Sound.take_ahead (sound : inlet.Sound) {count : Nat} (enough : count ≤ inlet.available) :
    inlet.ahead.take count =
        (inlet.chunk.physical.extract inlet.start (inlet.start + count)).toList ∧
      inlet.ahead.drop count =
        ({ inlet with start := inlet.start + count } : Inlet).ahead := by
  have order := sound.start_le
  have size := sound.size_buffered
  unfold available at enough
  have front : inlet.buffered.toList =
      (inlet.chunk.physical.extract inlet.start (inlet.start + count)).toList ++
        (inlet.chunk.physical.extract (inlet.start + count) inlet.stop).toList := by
    rw [← Array.toList_append, Array.extract_append_extract, Nat.min_eq_left (by omega),
      Nat.max_eq_right (by omega), buffered]
  have length : (inlet.chunk.physical.extract inlet.start (inlet.start + count)).toList.length =
      count := by
    have inside := sound.stop_le_size
    rw [Array.length_toList, Array.size_extract]
    omega
  unfold ahead
  rw [front, List.append_assoc]
  exact ⟨List.take_left' length, List.drop_left' length⟩

/-! ## Buffering more -/

/-- An inlet before and after some bytes arrived, which are buffered behind those it had. -/
structure Filled (inlet : Inlet) (arrived : List UInt8) (next : Inlet) : Prop where
  sound : next.Sound
  delivers : inlet.source.Delivers arrived next.source
  buffered_eq : next.buffered.toList = inlet.buffered.toList ++ arrived
  chunkSize_eq : next.chunkSize = inlet.chunkSize
  consumed_eq : next.consumed = inlet.consumed

/-- More was buffered perhaps, but the same bytes are ahead. -/
structure Kept (inlet next : Inlet) : Prop where
  sound : next.Sound
  ahead_eq : next.ahead = inlet.ahead
  chunkSize_eq : next.chunkSize = inlet.chunkSize
  consumed_eq : next.consumed = inlet.consumed

section Filled

variable {middle last : Inlet} {arrived : List UInt8}

theorem Filled.refl (sound : inlet.Sound) : Filled inlet [] inlet :=
  ⟨sound, .refl _, (List.append_nil _).symm, rfl, rfl⟩

theorem Filled.trans {later : List UInt8} (before : Filled inlet arrived middle)
    (after : Filled middle later last) : Filled inlet (arrived ++ later) last where
  sound := after.sound
  delivers := before.delivers.trans after.delivers
  buffered_eq := by rw [after.buffered_eq, before.buffered_eq, List.append_assoc]
  chunkSize_eq := after.chunkSize_eq.trans before.chunkSize_eq
  consumed_eq := after.consumed_eq.trans before.consumed_eq

/-- The bytes that arrived were ahead before, and still are. -/
theorem Filled.kept (filled : Filled inlet arrived last) : Kept inlet last where
  sound := filled.sound
  ahead_eq := by
    rw [ahead, ahead, filled.buffered_eq, filled.delivers.pending_eq, List.append_assoc]
  chunkSize_eq := filled.chunkSize_eq
  consumed_eq := filled.consumed_eq

end Filled

theorem chunkSize_compact (inlet : Inlet) : inlet.compact.chunkSize = inlet.chunkSize :=
  Block.length_edit _ _

theorem Sound.compact (sound : inlet.Sound) : inlet.compact.Sound := by
  refine ⟨sound.fits.edit fun cells => Storage.size_moveWithin _ _ _ _, Nat.zero_le _, ?_⟩
  rw [chunkSize_compact]
  exact Nat.le_trans (Nat.sub_le _ _) sound.stop_le

/-- Compacting moves the buffered bytes to the front of the chunk. -/
theorem Sound.buffered_compact (sound : inlet.Sound) :
    inlet.compact.buffered = inlet.buffered := by
  have order := sound.start_le
  have inside := sound.stop_le_size
  have moved : inlet.compact.tape = inlet.tape.move inlet.start inlet.available 0 := by
    unfold tape Inlet.compact
    rw [Block.physical_edit, Tape.ofArray_moveWithin]
    · unfold available
      omega
    · unfold available
      omega
    · exact Array.eq_empty_of_size_eq_zero (Storage.size_moveWithin _ _ _ _)
  rw [sound.compact.buffered_eq, sound.buffered_eq, moved]
  have read := inlet.tape.stretch_move inlet.start 0 (Nat.le_of_eq (Nat.zero_add inlet.available))
  exact read

theorem filled_compact (sound : inlet.Sound) : Filled inlet [] inlet.compact where
  sound := sound.compact
  delivers := .refl _
  buffered_eq := by rw [sound.buffered_compact, List.append_nil]
  chunkSize_eq := chunkSize_compact inlet
  consumed_eq := rfl

/-- The inlet after a read has delivered `bytes`, which go behind those it had. -/
def deliver (inlet : Inlet) (bytes : Array UInt8) (source : Source) : Inlet :=
  { inlet with
    source := source
    chunk := inlet.chunk.edit (Storage.overwrite · inlet.stop bytes)
    stop := inlet.stop + bytes.size }

theorem chunkSize_deliver (inlet : Inlet) (bytes : Array UInt8) (source : Source) :
    (inlet.deliver bytes source).chunkSize = inlet.chunkSize :=
  Block.length_edit _ _

theorem Sound.deliver (sound : inlet.Sound) {bytes : Array UInt8}
    (room : inlet.stop + bytes.size ≤ inlet.chunkSize) (source : Source) :
    (inlet.deliver bytes source).Sound := by
  refine ⟨sound.fits.edit fun cells => Storage.size_overwrite _ _ _, ?_, ?_⟩
  · exact Nat.le_trans sound.start_le (Nat.le_add_right _ _)
  · rw [chunkSize_deliver]
    exact room

theorem Sound.buffered_deliver (sound : inlet.Sound) {bytes : Array UInt8}
    (room : inlet.stop + bytes.size ≤ inlet.chunkSize) (source : Source) :
    (inlet.deliver bytes source).buffered = inlet.buffered ++ bytes := by
  have order := sound.start_le
  have inside := sound.fits.length_le
  have placed : (inlet.deliver bytes source).tape = inlet.tape.put inlet.stop bytes := by
    unfold chunkSize at room
    unfold tape Inlet.deliver
    rw [Block.physical_edit, Tape.ofArray_overwrite (by omega)]
    exact Array.eq_empty_of_size_eq_zero (Storage.size_overwrite _ _ _)
  have longer : (inlet.deliver bytes source).available = inlet.available + bytes.size := by
    show inlet.stop + bytes.size - inlet.start = inlet.stop - inlet.start + bytes.size
    omega
  have reach : inlet.start + inlet.available = inlet.stop := by
    unfold available
    omega
  rw [(sound.deliver room source).buffered_eq, sound.buffered_eq, placed, longer]
  show (inlet.tape.put inlet.stop bytes).stretch inlet.start _ = _
  rw [← Tape.stretch_append, reach, Tape.stretch_put,
    Tape.stretch_put_of_disjoint _ (.inl (Nat.le_of_eq reach))]

/-- What a read delivers is buffered behind what was there. -/
theorem filled_deliver (sound : inlet.Sound) {bytes : List UInt8} {source : Source}
    (h : inlet.source.read (inlet.chunkSize - inlet.stop) = (.ok bytes, source)) :
    Filled inlet bytes (inlet.deliver bytes.toArray source) := by
  have short := (Source.read_spec h).1
  have stop := sound.stop_le
  have room : inlet.stop + bytes.toArray.size ≤ inlet.chunkSize := by
    rw [List.size_toArray]
    omega
  refine ⟨sound.deliver room source, Source.read_delivers h, ?_, chunkSize_deliver _ _ _, rfl⟩
  rw [sound.buffered_deliver room, Array.toList_append]

/-- A read that answers no bytes, or fails, leaves the chunk as it is. -/
theorem filled_nothing (sound : inlet.Sound) {room : Nat} {outcome : Except IoFault (List UInt8)}
    {source : Source} (h : inlet.source.read room = (outcome, source))
    (nothing : outcome.toOption.getD [] = []) : Filled inlet [] { inlet with source := source } :=
  ⟨{ sound with }, nothing ▸ Source.read_delivers h, (List.append_nil _).symm, rfl, rfl⟩

/-- A loop that succeeds ends with enough bytes. -/
theorem available_of_refill (needed : Nat) (enough : (inlet.refill needed).1 = .ok ()) :
    needed ≤ (inlet.refill needed).2.available := by
  fun_induction refill inlet needed with
  | case1 inlet buffered => exact buffered
  | case2 inlet short source read => cases enough
  | case3 inlet short byte rest source read _ run ih => exact ih enough
  | case4 inlet short fault source read _ interrupted ih => exact ih enough
  | case5 inlet short fault source read _ failed => cases enough

theorem refill_filled (sound : inlet.Sound) (needed : Nat) :
    ∃ arrived, Filled inlet arrived (inlet.refill needed).2 := by
  fun_induction refill inlet needed with
  | case1 inlet enough => exact ⟨[], .refl sound⟩
  | case2 inlet short source read => exact ⟨[], filled_nothing sound read rfl⟩
  | case3 inlet short byte rest source read _ run ih =>
    -- What this read delivers comes in front of what the later ones do.
    have first := filled_deliver sound read
    obtain ⟨arrived, later⟩ := ih first.sound
    exact ⟨_, first.trans later⟩
  | case4 inlet short fault source read _ interrupted ih =>
    have first := filled_nothing sound read rfl
    obtain ⟨arrived, later⟩ := ih first.sound
    exact ⟨_, first.trans later⟩
  | case5 inlet short fault source read _ failed =>
    exact ⟨[], filled_nothing sound read rfl⟩

/-- What a call for so many bytes comes to when these are all there will ever be. -/
def sufficiency (needed : Nat) (ahead : List UInt8) : Except Error Unit :=
  if needed ≤ ahead.length then .ok () else .error (.unexpectedEnd .stream needed ahead.length)

/-- From a source that delivers all it has there are as many bytes as it has, if the chunk has room
for them. If these are too few, all of them are in the chunk. -/
theorem refill_complete (sound : inlet.Sound) (complete : inlet.source.Complete) {needed : Nat}
    (room : inlet.start + needed ≤ inlet.chunkSize) :
    (inlet.refill needed).1 = sufficiency needed inlet.ahead ∧
      (inlet.refill needed).2.source.Complete := by
  unfold sufficiency
  fun_induction refill inlet needed with
  | case1 inlet buffered =>
    have length := sound.length_ahead
    rw [if_pos (by omega)]
    exact ⟨rfl, complete⟩
  | case2 inlet short source read =>
    have positive : 0 < inlet.chunkSize - inlet.stop := by
      unfold available at short
      omega
    have none : inlet.source.pending = [] := complete.read_outcome positive read rfl
    have length := sound.length_ahead
    rw [none, List.length_nil, Nat.add_zero] at length
    rw [length, if_neg short]
    exact ⟨rfl, complete.read read⟩
  | case3 inlet short byte rest source read _ run ih =>
    have more := (filled_deliver sound read).kept
    have later := ih more.sound (complete.read read)
      (Nat.le_trans room (Nat.le_of_eq more.chunkSize_eq.symm))
    rw [← more.ahead_eq]
    exact later
  | case4 inlet short fault source read _ interrupted ih =>
    have same := (filled_nothing sound read rfl).kept
    have later := ih same.sound (complete.read read) room
    rw [← same.ahead_eq]
    exact later
  | case5 inlet short fault source read _ failed =>
    have positive : 0 < inlet.chunkSize - inlet.stop := by
      unfold available at short
      omega
    exact absurd (complete.read_outcome positive read) failed

theorem available_of_ensure (inlet : Inlet) (needed : Nat)
    (enough : (inlet.ensure needed).1 = .ok ()) :
    needed ≤ (inlet.ensure needed).2.available := by
  revert enough
  unfold ensure
  split
  · exact fun _ => ‹_›
  split
  · nofun
  split
  · exact available_of_refill needed
  · exact available_of_refill needed

theorem ensure_spec (sound : inlet.Sound) (needed : Nat) :
    (∃ arrived, Filled inlet arrived (inlet.ensure needed).2) ∧
      ((inlet.ensure needed).1 = .ok () → needed ≤ (inlet.ensure needed).2.available) := by
  refine ⟨?_, inlet.available_of_ensure needed⟩
  unfold ensure
  split
  · exact ⟨[], .refl sound⟩
  split
  · exact ⟨[], .refl sound⟩
  split
  · have moved := filled_compact sound
    obtain ⟨arrived, more⟩ := refill_filled moved.sound needed
    exact ⟨_, moved.trans more⟩
  · exact refill_filled sound needed

theorem ensure_complete (sound : inlet.Sound) (complete : inlet.source.Complete) {needed : Nat}
    (room : needed ≤ inlet.chunkSize) :
    (inlet.ensure needed).1 = sufficiency needed inlet.ahead ∧
      (inlet.ensure needed).2.source.Complete := by
  have order := sound.start_le
  have stop := sound.stop_le
  unfold ensure
  split
  · have length := sound.length_ahead
    unfold sufficiency
    rw [if_pos (by omega)]
    exact ⟨rfl, complete⟩
  rw [if_neg (Nat.not_lt.2 room)]
  split
  · -- The rest of the chunk is too short, but all of it is long enough.
    have moved := (filled_compact sound).kept
    have later := refill_complete moved.sound complete
      (by rw [moved.chunkSize_eq]; exact Nat.le_trans (Nat.le_of_eq (Nat.zero_add needed)) room)
    rw [moved.ahead_eq] at later
    exact later
  · refine refill_complete sound complete ?_
    unfold available at *
    omega

/-! ## Handing bytes out -/

/-- An inlet before and after a call on a source that delivers all it has: these bytes are still
ahead, and those before them were handed out. -/
structure Leaves (inlet : Inlet) (ahead : List UInt8) (next : Inlet) : Prop where
  sound : next.Sound
  complete : next.source.Complete
  chunkSize_eq : next.chunkSize = inlet.chunkSize
  ahead_eq : next.ahead = ahead
  consumed_eq : next.consumed + ahead.length = inlet.consumed + inlet.ahead.length

section Complete

variable (sound : inlet.Sound) (complete : inlet.source.Complete)

include sound complete

/-- Bytes are made available as long as there are so many, and all that are ahead stay there. -/
theorem ensure_cases {needed : Nat} (room : needed ≤ inlet.chunkSize) :
    ∃ next, Leaves inlet inlet.ahead next ∧
      (needed ≤ inlet.ahead.length ∧ inlet.ensure needed = (.ok (), next) ∧
          needed ≤ next.available ∨
        inlet.ahead.length < needed ∧ inlet.ensure needed =
          (.error (.unexpectedEnd .stream needed inlet.ahead.length), next)) := by
  obtain ⟨⟨arrived, filled⟩, buffered⟩ := ensure_spec sound needed
  obtain ⟨answered, still⟩ := ensure_complete sound complete room
  have kept := filled.kept
  refine ⟨_, ⟨kept.sound, still, kept.chunkSize_eq, kept.ahead_eq,
    congrArg (· + inlet.ahead.length) kept.consumed_eq⟩, ?_⟩
  unfold sufficiency at answered
  by_cases enough : needed ≤ inlet.ahead.length
  · rw [if_pos enough] at answered
    exact .inl ⟨enough, Prod.ext answered rfl, buffered answered⟩
  · rw [if_neg enough] at answered
    exact .inr ⟨Nat.lt_of_not_le enough, Prod.ext answered rfl⟩

/-- What is handed out is what was ahead. -/
theorem take_complete {count : Nat} (room : count ≤ inlet.chunkSize) :
    ∃ next, inlet.take count = ((cut .stream count inlet.ahead).1, next) ∧
      Leaves inlet (cut .stream count inlet.ahead).2 next := by
  obtain ⟨middle, kept, ⟨enough, buffered, available⟩ | ⟨short, failed⟩⟩ :=
    ensure_cases sound complete room
  · have order := kept.sound.start_le
    obtain ⟨front, behind⟩ := kept.sound.take_ahead available
    rw [kept.ahead_eq] at front behind
    have consumed := kept.consumed_eq
    rw [cut, if_pos enough]
    refine ⟨{ middle with start := middle.start + count, consumed := middle.consumed + count }, ?_,
      ⟨kept.sound.fits, ?_, kept.sound.stop_le⟩, kept.complete, kept.chunkSize_eq, behind.symm, ?_⟩
    · unfold take
      rw [buffered, front, Array.toArray_toList]
    · unfold Inlet.available at available
      show middle.start + count ≤ middle.stop
      omega
    · show middle.consumed + count + (inlet.ahead.drop count).length = _
      rw [List.length_drop]
      omega
  · rw [cut, if_neg (Nat.not_le.2 short)]
    refine ⟨middle, ?_, kept⟩
    unfold take
    rw [failed]

theorem takeByte_complete (room : 1 ≤ inlet.chunkSize) :
    ∃ next, inlet.takeByte = ((cutByte .stream inlet.ahead).1, next) ∧
      Leaves inlet (cutByte .stream inlet.ahead).2 next := by
  obtain ⟨middle, kept, ⟨enough, buffered, available⟩ | ⟨short, failed⟩⟩ :=
    ensure_cases sound complete room
  · have order := kept.sound.start_le
    have inside := kept.sound.stop_le_size
    have consumed := kept.consumed_eq
    obtain ⟨front, behind⟩ := kept.sound.take_ahead available
    unfold Inlet.available at available
    rw [kept.ahead_eq] at front behind
    cases first : inlet.ahead with
    | nil =>
      rw [first] at enough
      cases enough
    | cons byte rest =>
      rw [first] at front behind consumed
      have value : middle.chunk.physical.getD middle.start 0 = byte := by
        have here : (middle.chunk.physical.extract middle.start (middle.start + 1))[0]? =
            some byte := by
          rw [← Array.getElem?_toList, ← front]
          rfl
        rw [Array.getElem?_extract, if_pos (by omega), Nat.add_zero] at here
        rw [Array.getD_eq_getD_getElem?, here, Option.getD_some]
      refine ⟨{ middle with start := middle.start + 1, consumed := middle.consumed + 1 }, ?_,
        ⟨kept.sound.fits, ?_, kept.sound.stop_le⟩, kept.complete, kept.chunkSize_eq, behind.symm,
        ?_⟩
      · unfold takeByte
        rw [buffered]
        simp only [value, cutByte]
      · show middle.start + 1 ≤ middle.stop
        omega
      · show middle.consumed + 1 + rest.length = _
        rw [List.length_cons] at consumed
        rw [first, List.length_cons]
        omega
  · have none : inlet.ahead = [] := List.eq_nil_of_length_eq_zero (by omega)
    rw [none] at kept failed ⊢
    refine ⟨middle, ?_, ?_⟩
    · unfold takeByte
      rw [failed]
      rfl
    · exact kept

end Complete

/-! ## The start of an inlet -/

theorem sound_ofConfig (source : Source) {config : Config} {pool : Pool UInt8}
    (positive : 1 ≤ config.chunkSize) (sound : pool.Sound) :
    ∃ first rest, ofConfig source config pool = .ok (first, rest) ∧ first.Sound ∧
      first.source = source ∧ first.chunkSize = config.chunkSize ∧ first.ahead = source.pending ∧
      first.consumed = 0 := by
  have fits := Block.fits_rent sound config.chunkSize false
  refine ⟨(ofValid source config pool).1, (ofValid source config pool).2, ?_,
    ⟨fits, Nat.le_refl _, Nat.zero_le _⟩, rfl, rfl, ?_, rfl⟩
  · rw [ofConfig, Config.validate, if_neg (by omega)]
    rfl
  · have none : (ofValid source config pool).1.buffered = #[] :=
      Array.extract_eq_empty_of_le (Nat.min_le_left _ _)
    rw [ahead, none]
    rfl

end Inlet

end PooledBuffers.Stream
