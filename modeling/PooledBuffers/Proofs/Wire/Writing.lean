import PooledBuffers.Proofs.Stream.Acceptance
import PooledBuffers.Proofs.Wire.Items
import PooledBuffers.Proofs.Writer.Operations

/-!
# What an encoder carries

An encoder that grows in memory and one that sends chunks to a sink carry the same bytes: those of
the items that were put, one after another.

* `Encoder.Carries` — what an encoder has carried so far, on either carrier;
* `Encoder.put_carries`, `Encoder.putAll_carries` — items put, and the counts answered;
* `Encoder.flush_carries`, `Encoder.finish_carries` — a flush, and what it leaves behind.
-/

namespace PooledBuffers

open PooledBuffers.Stream (Outlet)

/-- What bytes are in while they are written or read. -/
inductive Carrier where
  | memory
  | stream (chunkSize : Nat)

/-- Bytes of this number can stay together. -/
def Carrier.Holds : Carrier → Nat → Prop
  | memory, _ => True
  | stream chunkSize, count => count ≤ chunkSize

instance (count : Nat) : (carrier : Carrier) → Decidable (carrier.Holds count)
  | .memory => .isTrue trivial
  | .stream chunkSize => inferInstanceAs (Decidable (count ≤ chunkSize))

namespace Encoder

/-- The encoder has carried `output`, and nothing but the length of its chunk can make a later call
fail. -/
inductive Carries : Carrier → Encoder → Pool UInt8 → Array UInt8 → Prop
  | memory {writer : Writer UInt8} {pool : Pool UInt8} {tape : Tape UInt8} {output : Array UInt8}
      (shows : Writer.Shows (writer, pool) tape output.size output.size)
      (output_eq : tape.stretch 0 output.size = output) :
      Carries .memory (.memory writer) pool output
  | stream {outlet : Outlet} {pool : Pool UInt8} {chunkSize : Nat} {output : Array UInt8}
      (sound : outlet.Sound pool) (willing : outlet.sink.Willing)
      (chunkSize_eq : outlet.chunkSize = chunkSize) (positive : 1 ≤ chunkSize)
      (output_eq : outlet.carried = output) :
      Carries (.stream chunkSize) (.stream outlet) pool output

section Calls

variable {carrier : Carrier} {encoder : Encoder} {pool : Pool UInt8} {output : Array UInt8}

/-- A writer that wrote a run at its cursor carries it behind the others. -/
theorem Carries.memory_put {writer : Writer UInt8} {tape : Tape UInt8} {run : Array UInt8}
    {length : Nat} (output_eq : tape.stretch 0 output.size = output)
    (shows : Writer.Shows (writer, pool) (tape.put output.size run) (output.size + run.size)
      (max length (output.size + run.size))) :
    Carries .memory (.memory writer) pool (output ++ run) := by
  have size : (output ++ run).size = output.size + run.size := Array.size_append
  have grown : (tape.put output.size run).stretch 0 (output ++ run).size = output ++ run := by
    rw [size, ← tape.stretch_put_append, output_eq]
  refine .memory ?_ grown
  rw [size]
  exact shows.mono (Nat.le_max_right _ _)

theorem Carries.stream_gained {outlet next : Outlet} {chunkSize : Nat} {run : Array UInt8}
    (chunkSize_eq : outlet.chunkSize = chunkSize) (positive : 1 ≤ chunkSize)
    (output_eq : outlet.carried = output) (gained : outlet.Gained run next pool)
    (willing : next.sink.Willing) :
    Carries (.stream chunkSize) (.stream next) pool (output ++ run) :=
  .stream gained.sound willing (gained.chunkSize_eq.trans chunkSize_eq) positive
    (gained.carried_eq.trans (congrArg (· ++ run) output_eq))

/-- A refused item changes nothing. -/
theorem put_refused {item : Item} {e : Error} (refused : item.check = .error e) :
    encoder.put item pool = (.error e, encoder, pool) := by
  cases item with
  | @value τ layout lawful order content =>
    have checked : Layout.checkOrder τ order = .error e := refused
    show Encoder.value encoder order content pool = _
    unfold Encoder.value
    simp only [checked]
  | byte _ | bytes _ | text _ _ | units _ => cases refused

/-! ## Bytes -/

variable (carries : Carries carrier encoder pool output)

include carries

theorem bytes_carries (run : Array UInt8)
    (small : carrier = .memory → output.size + run.size ≤ Size.maxCapacity) :
    ∃ next rest, encoder.bytes run pool = (.ok (), next, rest) ∧
      Carries carrier next rest (output ++ run) := by
  cases carries with
  | memory shows output_eq =>
    exact ⟨_, _, rfl, .memory_put output_eq (shows.appendRun (Nat.le_refl _) (small rfl))⟩
  | @stream outlet pool chunkSize output sound willing chunkSize_eq positive output_eq =>
    obtain ⟨next, written, gained, still⟩ := Outlet.write_willing sound willing run
    refine ⟨.stream next, pool, ?_, .stream_gained chunkSize_eq positive output_eq gained still⟩
    unfold Encoder.bytes
    simp only [written]

theorem byte_carries (value : UInt8)
    (small : carrier = .memory → output.size + 1 ≤ Size.maxCapacity) :
    ∃ next rest, encoder.byte value pool = (.ok (), next, rest) ∧
      Carries carrier next rest (output ++ #[value]) := by
  cases carries with
  | memory shows output_eq =>
    exact ⟨_, _, rfl, .memory_put output_eq (shows.append (Nat.le_refl _) (small rfl) value)⟩
  | @stream outlet pool chunkSize output sound willing chunkSize_eq positive output_eq =>
    obtain ⟨next, added, gained, still⟩ :=
      Outlet.add_willing sound willing (chunkSize_eq ▸ positive) value
    refine ⟨.stream next, pool, ?_, .stream_gained chunkSize_eq positive output_eq gained still⟩
    unfold Encoder.byte
    simp only [added]

theorem together_carries (run : Array UInt8) (holds : carrier.Holds run.size)
    (small : carrier = .memory → output.size + run.size ≤ Size.maxCapacity) :
    ∃ next rest, encoder.together run pool = (.ok (), next, rest) ∧
      Carries carrier next rest (output ++ run) := by
  cases carries with
  | memory shows output_eq =>
    obtain ⟨-, after⟩ := shows.acquire (Nat.le_refl _) (small rfl) true run
    rw [Array.extract_size, if_pos rfl] at after
    exact ⟨_, _, rfl, .memory_put output_eq after⟩
  | @stream outlet pool chunkSize output sound willing chunkSize_eq positive output_eq =>
    have short : run.size ≤ outlet.chunkSize := chunkSize_eq ▸ holds
    obtain ⟨handed, next, acquired, gained, still⟩ :=
      Outlet.acquire_willing sound willing short
    refine ⟨.stream next, pool, ?_, .stream_gained chunkSize_eq positive output_eq gained still⟩
    unfold Encoder.together
    simp only [acquired]
    rfl

/-- Pieces are carried one behind the other, however many there are. -/
theorem pieces_carries (pieces : List (Array UInt8)) (before : Nat)
    (small : carrier = .memory → output.size + (join pieces).size ≤ Size.maxCapacity) :
    ∃ next rest, handOut sink (encoder, pool) before pieces =
        (.ok (before + (join pieces).size), next, rest) ∧
      Carries carrier next rest (output ++ join pieces) := by
  induction pieces generalizing encoder pool output before with
  | nil => exact ⟨encoder, pool, rfl, by simpa using carries⟩
  | cons piece others ih =>
    simp only [join_cons, Array.size_append] at small
    obtain ⟨middle, state, first, after⟩ :=
      bytes_carries carries piece fun h => by have := small h; omega
    obtain ⟨next, rest, second, last⟩ := ih after (before + piece.size) fun h => by
      have := small h
      rw [Array.size_append]
      omega
    refine ⟨next, rest, ?_, ?_⟩
    · have handed : sink (encoder, pool) piece = (.ok (), middle, state) := first
      rw [handOut, handed]
      simp only [second, join_cons, Array.size_append, Nat.add_assoc]
    · rw [join_cons, ← Array.append_assoc]
      exact last

/-! ## Items -/

/-- An item that is not refused and whose parts fit is taken, its bytes are carried behind the
others, and the count answered is theirs. -/
theorem put_carries {item : Item} (accepted : item.check = .ok ())
    (holds : carrier.Holds item.span)
    (small : carrier = .memory → output.size + item.image.size ≤ Size.maxCapacity) :
    ∃ next rest, encoder.put item pool = (.ok item.image.size, next, rest) ∧
      Carries carrier next rest (output ++ item.image) := by
  cases item with
  | @value τ layout lawful order content =>
    have width : (Layout.bytes order content).size = Layout.width τ :=
      Layout.size_bytes order content
    obtain ⟨next, rest, written, after⟩ :=
      together_carries carries (Layout.bytes order content) (width ▸ holds) small
    have checked : Layout.checkOrder τ order = .ok () := accepted
    refine ⟨next, rest, ?_, after⟩
    show Encoder.value encoder order content pool = _
    unfold Encoder.value
    simp only [checked, written, Item.image, width]
    rfl
  | byte content =>
    obtain ⟨next, rest, written, after⟩ := byte_carries carries content small
    refine ⟨next, rest, ?_, after⟩
    unfold put
    simp only [written]
    rfl
  | bytes run =>
    obtain ⟨next, rest, written, after⟩ := bytes_carries carries run small
    refine ⟨next, rest, ?_, after⟩
    unfold put
    simp only [written]
    rfl
  | text encoding content =>
    obtain ⟨next, rest, written, after⟩ := pieces_carries carries (encoding.pieces content) 0 small
    rw [Nat.zero_add] at written
    exact ⟨next, rest, written, after⟩
  | units content =>
    have whole := join_unitPieces content
    obtain ⟨next, rest, written, after⟩ :=
      pieces_carries carries (unitPieces content) 0 (by rw [whole]; exact small)
    rw [whole] at after
    refine ⟨next, rest, ?_, after⟩
    show unitsInto sink (encoder, pool) content = _
    unfold unitsInto
    rw [written]
    simp only [Item.image, size_bytesOfUnits]
    rfl

/-- A flush carries nothing more and nothing less. -/
theorem flush_carries :
    ∃ next rest, encoder.flush pool = (.ok (), next, rest) ∧ Carries carrier next rest output := by
  cases carries with
  | memory shows output_eq => exact ⟨_, _, rfl, .memory shows output_eq⟩
  | @stream outlet pool chunkSize output sound willing chunkSize_eq positive output_eq =>
    obtain ⟨outcome, next, sent, flushed, after, kept, -⟩ := Outlet.flush_spec sound
    have ok := Outlet.flush_willing willing pool
    rw [flushed] at ok
    obtain ⟨rfl, still⟩ := ok
    refine ⟨.stream next, pool, ?_, .stream after still (kept.chunkSize_eq.trans chunkSize_eq)
      positive ((kept.carried_eq sound).trans output_eq)⟩
    unfold Encoder.flush
    simp only [flushed]

theorem putAll_carries (items : List Item) (narrow : ∀ item ∈ items, item.span ≤ maxSwapWidth)
    (holds : ∀ item ∈ items, carrier.Holds item.span)
    (small : carrier = .memory → output.size + (payload items).size ≤ Size.maxCapacity) :
    ∃ next rest, encoder.putAll pool items =
        (.ok (items.map fun item => item.image.size), next, rest) ∧
      Carries carrier next rest (output ++ payload items) := by
  induction items generalizing encoder pool output with
  | nil => exact ⟨encoder, pool, rfl, by simpa using carries⟩
  | cons item others ih =>
    rw [List.forall_mem_cons] at narrow holds
    simp only [payload_cons, Array.size_append] at small
    obtain ⟨middle, state, first, after⟩ :=
      put_carries carries (item.check_eq_ok narrow.1) holds.1 fun h => by have := small h; omega
    obtain ⟨next, rest, second, last⟩ := ih after narrow.2 holds.2 fun h => by
      have := small h
      rw [Array.size_append]
      omega
    refine ⟨next, rest, ?_, ?_⟩
    · rw [putAll, first]
      simp only [second]
      rfl
    · rw [payload_cons, ← Array.append_assoc]
      exact last

/-- All that was carried is there at the end. -/
theorem finish_carries : encoder.finish pool = .ok output := by
  cases carries with
  | @memory writer pool tape output shows output_eq =>
    have written : writer.written = output := by
      rw [shows.written_eq (Nat.le_refl _), output_eq]
    exact congrArg Except.ok written
  | @stream outlet pool chunkSize output sound willing chunkSize_eq positive output_eq =>
    obtain ⟨sink, rest, closed, accepted⟩ := Outlet.close_willing sound willing
    unfold finish intoSink
    simp only [closed]
    exact congrArg Except.ok (accepted.trans output_eq)

end Calls

/-! ## Starts -/

/-- Where an encoder starts. -/
inductive Start where
  /-- On memory that the caller lends, whatever it holds. -/
  | memory (cells : Array UInt8)
  | rented (length : Nat)
  | stream (sink : Stream.Sink) (config : Stream.Config)

namespace Start

def make (pool : Pool UInt8) : Start → Except Error (Encoder × Pool UInt8)
  | memory cells => .ok (onMemory cells, pool)
  | rented length => .ok (withCapacity pool length)
  | stream sink config => toStream sink config pool

def carrier : Start → Carrier
  | memory _ | rented _ => .memory
  | stream _ config => .stream config.chunkSize

/-- What was in the sink before. -/
def before : Start → Array UInt8
  | memory _ | rented _ => #[]
  | stream sink _ => sink.accepted

/-- A sink that fails no call for good, and a chunk that is not empty and within the bound on
growth. -/
def Willing : Start → Prop
  | memory _ | rented _ => True
  | stream sink config =>
    sink.Willing ∧ 1 ≤ config.chunkSize ∧ config.chunkSize ≤ Size.maxCapacity

theorem before_of_memory {start : Start} (h : start.carrier = .memory) : start.before = #[] := by
  cases start with
  | memory cells => rfl
  | rented length => rfl
  | stream sink config => cases h

theorem carries (start : Start) (willing : start.Willing) {pool : Pool UInt8}
    (sound : pool.Sound) :
    ∃ first rest, start.make pool = .ok (first, rest) ∧
      Carries start.carrier first rest start.before := by
  cases start with
  | memory cells =>
    have shows := Writer.shows_onMemory cells (some defaultMinGrow) sound
    exact ⟨_, _, rfl, .memory (shows.mono (Nat.zero_le _)) (Tape.stretch_zero _ _)⟩
  | rented length =>
    have shows := Writer.shows_withCapacity sound length none
    exact ⟨_, _, rfl, .memory (shows.mono (Nat.zero_le _)) (Tape.stretch_zero _ _)⟩
  | stream sink config =>
    obtain ⟨answers, positive, allocatable⟩ := willing
    obtain ⟨outlet, rest, made, good, same, chunkSize, nothing⟩ :=
      Outlet.sound_ofConfig sink positive allocatable sound
    refine ⟨.stream outlet, rest, ?_, .stream good (same ▸ answers) chunkSize positive nothing⟩
    unfold make toStream
    simp only [made]
    rfl

end Start

end Encoder

end PooledBuffers
