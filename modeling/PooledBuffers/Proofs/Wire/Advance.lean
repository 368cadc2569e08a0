import PooledBuffers.Proofs.Wire.Answers

/-!
# How far a read in memory takes the cursor

A read that succeeds takes the cursor behind the bytes it read. A read that fails leaves it alone
if its fault is found before any byte is taken: a type too wide for its byte order, an odd number
of bytes for code units, too few bytes. The bytes of a text are taken first and decoded then, so
that a read of bytes that are no text takes the cursor behind them and fails.

* `Request.check`, `Request.decode` — what a read looks at before it takes bytes, and what it makes
  of them; `Decoder.serve_memory` — every read is these two with the taking between them;
* `Request.decode_fails` — the faults that are left to decoding;
* `Decoder.Advances`, `Decoder.advances_of_serve` — all that a read can come to;
* `Decoder.cursor_after_read` — where the cursor is after a read, at any place in any memory.
-/

namespace PooledBuffers

/-! ## Faults of decoding -/

theorem TextEncoding.decode_fails {encoding : TextEncoding} {run : Array UInt8} {e : Error}
    (failed : encoding.decode run = .error e) : run.size ≠ 0 ∧ ∃ fault, e = .encoding fault := by
  refine ⟨fun none => ?_, ?_⟩
  · have empty : run = #[] := Array.eq_empty_of_size_eq_zero none
    rw [empty] at failed
    cases encoding <;> cases failed
  · cases encoding with
    | utf8 =>
      simp only [TextEncoding.decode] at failed
      split at failed
      · cases failed
      · cases failed
        exact ⟨_, rfl⟩
    | utf16 order =>
      simp only [TextEncoding.decode] at failed
      split at failed
      · cases failed
        exact ⟨_, rfl⟩
      split at failed
      · cases failed
      · cases failed
        exact ⟨_, rfl⟩

namespace Utf16View

theorem toText_fails {view : Utf16View} {e : Error} (failed : view.toText = .error e) :
    view.bytes.size ≠ 0 ∧ ∃ fault, e = .encoding fault := by
  unfold toText at failed
  refine ⟨fun none => ?_, ?_⟩
  · have empty : view.bytes = #[] := Array.eq_empty_of_size_eq_zero none
    rw [units, empty] at failed
    cases failed
  · split at failed
    · cases failed
    · cases failed
      exact ⟨_, rfl⟩

/-- The bytes of a count that is not refused can be seen as code units. -/
theorem ofBytes_of_checkEven {run : Array UInt8} (checks : checkEven run.size = .ok ()) :
    ∃ even, ofBytes run = .ok ⟨run, even⟩ := by
  unfold checkEven at checks
  split at checks
  · rename_i even
    exact ⟨even, dif_pos even⟩
  · cases checks

end Utf16View

theorem Layout.read_of_checkOrder {τ : Type} [Layout τ] {order : ByteOrder} {run : Array UInt8}
    (checks : checkOrder τ order = .ok ()) (size : run.size = width τ) :
    Layout.read order run = .ok (ofBytes order run : τ) := by
  have whole : checkLength τ run.size = .ok () := if_neg (by omega)
  unfold Layout.read
  rw [checks, whole]
  rfl

/-! ## The parts of a read -/

namespace Request

/-- What a read refuses before it takes bytes. -/
def check : Request → Except Error Unit
  | @value τ _ order => Layout.checkOrder τ order
  | byte | bytes _ | text _ _ => .ok ()
  | units count | unitsText count => Utf16View.checkEven count

/-- What a read makes of the bytes taken. -/
def decode : (request : Request) → Array UInt8 → Except Error request.Answer
  | @value τ layout order => @Layout.read τ layout order
  | byte => fun run => .ok (run.getD 0 0)
  | bytes _ => .ok
  | text encoding _ => encoding.decode
  | units _ => Utf16View.ofBytes
  | unitsText _ => fun run => (Utf16View.ofBytes run).bind Utf16View.toText

/-- A fault that is found before any byte is taken. -/
def FoundEarly (request : Request) (e : Error) : Prop :=
  request.check = .error e ∨ e.isEndOfInput

theorem not_foundEarly_encoding {request : Request} (checks : request.check = .ok ())
    (fault : EncodingFault) : ¬ request.FoundEarly (.encoding fault) := by
  rintro (refuses | ended)
  · rw [checks] at refuses
    cases refuses
  · cases ended

/-- Decoding fails only on bytes that are no text, and there are some. -/
theorem decode_fails {request : Request} {run : Array UInt8} {e : Error}
    (checks : request.check = .ok ()) (size : run.size = request.size)
    (failed : request.decode run = .error e) :
    request.size ≠ 0 ∧ ∃ fault, e = .encoding fault := by
  cases request with
  | @value τ layout order =>
    have reads := Layout.read_of_checkOrder checks size
    cases reads.symm.trans failed
  | byte => cases failed
  | bytes count => cases failed
  | text encoding count => exact size ▸ TextEncoding.decode_fails failed
  | units count =>
    obtain rfl : run.size = count := size
    obtain ⟨even, seen⟩ := Utf16View.ofBytes_of_checkEven checks
    cases seen.symm.trans failed
  | unitsText count =>
    obtain rfl : run.size = count := size
    obtain ⟨even, seen⟩ := Utf16View.ofBytes_of_checkEven checks
    have failed : (Utf16View.ofBytes run).bind Utf16View.toText = .error e := failed
    rw [seen] at failed
    exact Utf16View.toText_fails failed

end Request

namespace Decoder

/-! ## One read -/

/-- The next byte is the one in the next run of length one. -/
theorem byte_memory (data : Array UInt8) (position : Nat) :
    (memory data position).byte =
      (memory data position).decodeNext 1 fun run => .ok (run.getD 0 0) := by
  unfold byte decodeNext bytes
  by_cases inside : position < data.size
  · have enough : ¬ data.size - position < 1 := by omega
    have one : 0 < (data.extract position (position + 1)).size := by
      rw [Array.size_extract]
      omega
    have first : (data.extract position (position + 1)).getD 0 0 = data[position] := by
      rw [← Array.getElem_eq_getD (h := one), Array.getElem_extract]
      rfl
    simp only [if_neg enough, Array.getElem?_eq_getElem inside, first]
  · have none : data.size - position = 0 := by omega
    simp [inside, none]

/-- Viewing code units and turning them into a text is decoding of one kind. -/
theorem unitsText_eq (decoder : Decoder) (count : Nat) :
    decoder.unitsText count =
      checked (Utf16View.checkEven count) decoder
        (decoder.decodeNext count fun run => (Utf16View.ofBytes run).bind Utf16View.toText) := by
  unfold unitsText units checked
  cases Utf16View.checkEven count with
  | error e => rfl
  | ok =>
    simp only [decodeNext]
    rcases decoder.bytes count with ⟨_ | run, next⟩
    · rfl
    · simp only
      cases Utf16View.ofBytes run <;> rfl

/-- A read is a check, the taking of bytes, and their decoding. -/
theorem serve_memory (data : Array UInt8) (position : Nat) (request : Request) :
    (memory data position).serve request =
      checked request.check (memory data position)
        ((memory data position).decodeNext request.size request.decode) := by
  cases request with
  | @value τ layout order =>
    show (memory data position).value τ order = checked (Layout.checkOrder τ order) _
      ((memory data position).decodeNext (Layout.width τ) (Layout.read order))
    unfold value checked
    cases Layout.checkOrder τ order <;> rfl
  | byte => exact byte_memory data position
  | bytes count =>
    show (memory data position).bytes count =
      (memory data position).decodeNext count fun run => .ok run
    unfold decodeNext
    rcases (memory data position).bytes count with ⟨_ | _, _⟩ <;> rfl
  | text encoding count => rfl
  | units count =>
    show (memory data position).units count = checked (Utf16View.checkEven count) _
      ((memory data position).decodeNext count Utf16View.ofBytes)
    unfold units checked
    cases Utf16View.checkEven count <;> rfl
  | unitsText count => exact unitsText_eq (memory data position) count

/-- All that a read at a position can come to, with the position behind it. -/
inductive Advances (data : Array UInt8) (position : Nat) (request : Request) :
    Except Error request.Answer → Nat → Prop
  | refused (e : Error) (refuses : request.check = .error e) :
    Advances data position request (.error e) position
  | short (few : data.size - position < request.size) :
    Advances data position request
      (.error (.unexpectedEnd .buffer request.size (data.size - position))) position
  | answered (answer : request.Answer) (enough : request.size ≤ data.size - position) :
    Advances data position request (.ok answer) (position + request.size)
  | undecoded (fault : EncodingFault) (checks : request.check = .ok ())
      (enough : request.size ≤ data.size - position) (nonempty : request.size ≠ 0) :
    Advances data position request (.error (.encoding fault)) (position + request.size)

/-- A read comes to one of these, and leaves the memory as it is. -/
theorem advances_of_serve (data : Array UInt8) (position : Nat) (request : Request) :
    ∃ outcome now, (memory data position).serve request = (outcome, memory data now) ∧
      Advances data position request outcome now := by
  rw [serve_memory]
  cases checks : request.check with
  | error e => exact ⟨.error e, position, rfl, .refused e checks⟩
  | ok =>
    unfold checked decodeNext bytes
    by_cases few : data.size - position < request.size
    · simp only [if_pos few]
      exact ⟨_, position, rfl, .short few⟩
    · have enough : request.size ≤ data.size - position := Nat.not_lt.mp few
      simp only [if_neg few]
      have size : (data.extract position (position + request.size)).size = request.size := by
        rw [Array.size_extract]
        omega
      cases decoded : request.decode (data.extract position (position + request.size)) with
      | ok answer => exact ⟨.ok answer, position + request.size, rfl, .answered answer enough⟩
      | error e =>
        obtain ⟨nonempty, fault, rfl⟩ := Request.decode_fails checks size decoded
        exact ⟨_, position + request.size, rfl, .undecoded fault checks enough nonempty⟩

/-- The cursor of a decoder as it is told: its place, and the bytes behind it. -/
def cursor (decoder : Decoder) : Except Error Nat × Except Error Nat :=
  (decoder.position, decoder.remaining)

/-- After a read that succeeds the cursor is behind the bytes read, which were there. A read that
fails leaves the cursor where it was if its fault is found before bytes are taken, and only then:
otherwise it fails on the bytes that it took, and the cursor is behind them as after a success. -/
theorem cursor_after_read (data : Array UInt8) (position : Nat) (request : Request) :
    let start := memory data position
    let served := start.serve request
    let behind : Except Error Nat × Except Error Nat :=
      (.ok (position + request.size), .ok (data.size - position - request.size))
    (∀ answer, served.1 = .ok answer →
      request.size ≤ data.size - position ∧ served.2.cursor = behind) ∧
    ∀ e, served.1 = .error e →
      (served.2.cursor = start.cursor ↔ request.FoundEarly e) ∧
      (¬ request.FoundEarly e →
        request.size ≤ data.size - position ∧ served.2.cursor = behind) := by
  intro start served behind
  obtain ⟨outcome, now, served_eq, advances⟩ := advances_of_serve data position request
  have served_eq : served = (outcome, memory data now) := served_eq
  have moved : (memory data (position + request.size)).cursor = behind := by
    show (Except.ok (position + request.size), Except.ok (data.size - (position + request.size))) =
      behind
    rw [← Nat.sub_sub]
  rw [served_eq]
  refine ⟨fun answer answered => ?_, fun e failed => ?_⟩
  · cases advances with
    | answered _ enough => exact ⟨enough, moved⟩
    | refused | short | undecoded => cases answered
  · cases advances with
    | answered => cases failed
    | refused _ refuses =>
      cases failed
      have early : request.FoundEarly e := .inl refuses
      exact ⟨iff_of_true rfl early, fun late => absurd early late⟩
    | short few =>
      cases failed
      have early : request.FoundEarly
          (.unexpectedEnd .buffer request.size (data.size - position)) := .inr rfl
      exact ⟨iff_of_true rfl early, fun late => absurd early late⟩
    | undecoded fault checks enough nonempty =>
      cases failed
      have late := Request.not_foundEarly_encoding checks fault
      refine ⟨iff_of_false (fun same => ?_) late, fun _ => ⟨enough, moved⟩⟩
      have place : position + request.size = position := Except.ok.inj (congrArg Prod.fst same)
      omega

/-- A number read behind the first byte, one for which there are too few bytes, and a byte that is
no text. -/
theorem cursor_after_read_behind :
    let data : Array UInt8 := #[7, 1, 0xFF]
    ((memory data 1).serve (.value UInt16 .big)).2.cursor = (.ok 3, .ok 0) ∧
      ((memory data 2).serve (.value UInt16 .big)).2.cursor = (.ok 2, .ok 1) ∧
      ((memory data 2).serve (.text .utf8 1)).2.cursor = (.ok 3, .ok 0) := by
  intro data
  obtain ⟨answered, -⟩ := cursor_after_read data 1 (.value UInt16 .big)
  obtain ⟨-, short⟩ := cursor_after_read data 2 (.value UInt16 .big)
  obtain ⟨-, failed⟩ := cursor_after_read data 2 (.text .utf8 1)
  have late := Request.not_foundEarly_encoding (rfl : (Request.text .utf8 1).check = .ok ())
  exact ⟨(answered (0x01FF : UInt16) rfl).2, (short _ rfl).1.mpr (.inr rfl),
    ((failed _ rfl).2 (late _)).2⟩

/-- A byte that is no text, and a surrogate without a partner: the read fails and the cursor is
behind them. -/
theorem cursor_moved_by_failure :
    let broken := memory #[0xFF, 1] 0
    let lone := memory #[0, 0xD8, 1] 0
    (broken.serve (.text .utf8 1)).1 = .error (.encoding (.malformedUtf8 ⟨0, some 1⟩)) ∧
      (broken.serve (.text .utf8 1)).2.cursor ≠ broken.cursor ∧
      (lone.serve (.unitsText 2)).1 = .error (.encoding (.unpairedSurrogate 0xD800)) ∧
      (lone.serve (.unitsText 2)).2.cursor ≠ lone.cursor := by
  intro broken lone
  refine ⟨rfl, fun same => ?_, rfl, fun same => ?_⟩
  · cases congrArg Prod.fst same
  · cases congrArg Prod.fst same

end Decoder

end PooledBuffers
