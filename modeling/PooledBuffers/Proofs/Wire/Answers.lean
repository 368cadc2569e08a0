import PooledBuffers.Proofs.Wire.Reading

/-!
# Answers do not depend on the carrier

Which bytes a decoder has in front of it decides what each of its calls answers and which bytes are
in front of it afterwards, on memory as on a stream, and after a failure as after a success. The
only trace of the carrier is the word for it where the bytes run out.

* `Request` — the calls of a decoder, each with its kind of answer;
* `Request.outcome` — what the bytes ahead decide of a call;
* `Decoder.serve_outcome`, `Decoder.serveAll_outcomes` — one call, and any number of them;
* `Decoder.stream_answers` — a decoder of a stream against one of the same bytes in memory.
-/

namespace PooledBuffers

open PooledBuffers.Stream (Inlet Source cut cutByte)

/-- One call of a decoder. A text in UTF-8 is read the same whether it is copied or borrowed. -/
inductive Request : Type 1 where
  | value (τ : Type) [Layout τ] (order : ByteOrder)
  | byte
  | bytes (count : Nat)
  | text (encoding : TextEncoding) (count : Nat)
  | units (count : Nat)
  | unitsText (count : Nat)

namespace Request

/-- What a call answers if it succeeds. -/
def Answer : Request → Type
  | @Request.value τ _ _ => τ
  | .byte => UInt8
  | .bytes _ => Array UInt8
  | .text _ _ => String
  | .units _ => Utf16View
  | .unitsText _ => String

/-- The number of bytes that a call reads. -/
def size : Request → Nat
  | @Request.value τ _ _ => Layout.width τ
  | .byte => 1
  | .bytes count | .text _ count | .units count | .unitsText count => count

end Request

/-- A call with what it came to. -/
abbrev Answered : Type 1 := Σ request : Request, Except Error request.Answer

/-- The error of a decoder in memory as a decoder of a stream reports it. -/
def Error.onStream : Error → Error
  | .unexpectedEnd _ needed available => .unexpectedEnd .stream needed available
  | other => other

/-- An outcome in memory as it is on a stream. -/
def Answered.onStream (answered : Answered) : Answered :=
  ⟨answered.1, answered.2.mapError Error.onStream⟩

namespace Decoder

/-- Makes a call. -/
def serve (decoder : Decoder) : (request : Request) → Except Error request.Answer × Decoder
  | @Request.value τ _ order => decoder.value τ order
  | .byte => decoder.byte
  | .bytes count => decoder.bytes count
  | .text encoding count => decoder.text encoding count
  | .units count => decoder.units count
  | .unitsText count => decoder.unitsText count

/-- Makes calls one after another, also behind those that fail. -/
def serveAll (decoder : Decoder) : List Request → List Answered
  | [] => []
  | request :: rest => ⟨request, (decoder.serve request).1⟩ :: (decoder.serve request).2.serveAll rest

end Decoder

/-! ## What the bytes ahead decide -/

section Outcomes

variable (medium : Medium) (ahead : List UInt8)

/-- Bytes cut off and decoded. -/
def decodeCut {β : Type} (count : Nat) (decode : Array UInt8 → Except Error β) :
    Except Error β × List UInt8 :=
  ((cut medium count ahead).1.bind decode, (cut medium count ahead).2)

/-- A call that is made if a check succeeds. -/
def checked {β σ : Type} (check : Except Error Unit) (unchanged : σ) (call : Except Error β × σ) :
    Except Error β × σ :=
  match check with
  | .ok () => call
  | .error e => (.error e, unchanged)

/-- Code units cut off. -/
def unitsCut (count : Nat) : Except Error Utf16View × List UInt8 :=
  checked (Utf16View.checkEven count) ahead (decodeCut medium ahead count Utf16View.ofBytes)

/-- A value cut off. -/
def valueCut (τ : Type) [Layout τ] (order : ByteOrder) : Except Error τ × List UInt8 :=
  checked (Layout.checkOrder τ order) ahead
    (decodeCut medium ahead (Layout.width τ) (Layout.read order))

/-- What a call comes to with these bytes ahead, and the bytes that it leaves. -/
def Request.outcome : (request : Request) → Except Error request.Answer × List UInt8
  | @Request.value τ _ order => valueCut medium ahead τ order
  | .byte => cutByte medium ahead
  | .bytes count => cut medium count ahead
  | .text encoding count => decodeCut medium ahead count encoding.decode
  | .units count => unitsCut medium ahead count
  | .unitsText count =>
    ((unitsCut medium ahead count).1.bind Utf16View.toText, (unitsCut medium ahead count).2)

/-- What calls come to one after another. -/
def outcomes (medium : Medium) (ahead : List UInt8) : List Request → List Answered
  | [] => []
  | request :: rest =>
    ⟨request, (request.outcome medium ahead).1⟩ ::
      outcomes medium (request.outcome medium ahead).2 rest

end Outcomes

namespace Decoder

variable {carrier : Carrier} {decoder : Decoder} {consumed : Nat} {ahead : List UInt8}

theorem decodeNext_cut {β : Type} (decode : Array UInt8 → Except Error β)
    (reads : Reads carrier decoder consumed ahead) {count : Nat} (holds : carrier.Holds count) :
    ∃ next now, decoder.decodeNext count decode =
        ((decodeCut carrier.medium ahead count decode).1, next) ∧
      Reads carrier next now (decodeCut carrier.medium ahead count decode).2 := by
  obtain ⟨next, now, taken, after, -⟩ := bytes_cut reads holds
  refine ⟨next, now, ?_, after⟩
  unfold decodeNext decodeCut
  rw [taken]
  cases (cut carrier.medium count ahead).1 with
  | ok run => rfl
  | error e => rfl

theorem value_cut (τ : Type) [Layout τ] (order : ByteOrder)
    (reads : Reads carrier decoder consumed ahead) (holds : carrier.Holds (Layout.width τ)) :
    ∃ next now, decoder.value τ order = ((valueCut carrier.medium ahead τ order).1, next) ∧
      Reads carrier next now (valueCut carrier.medium ahead τ order).2 := by
  unfold Decoder.value valueCut checked
  cases Layout.checkOrder τ order with
  | ok => exact decodeNext_cut (Layout.read order) reads holds
  | error e => exact ⟨decoder, consumed, rfl, reads⟩

theorem units_cut (reads : Reads carrier decoder consumed ahead) {count : Nat}
    (holds : carrier.Holds count) :
    ∃ next now, decoder.units count = ((unitsCut carrier.medium ahead count).1, next) ∧
      Reads carrier next now (unitsCut carrier.medium ahead count).2 := by
  unfold Decoder.units unitsCut checked
  cases Utf16View.checkEven count with
  | ok => exact decodeNext_cut Utf16View.ofBytes reads holds
  | error e => exact ⟨decoder, consumed, rfl, reads⟩

/-- A call comes to what the bytes ahead decide, and so do the bytes it leaves. -/
theorem serve_outcome (request : Request) (reads : Reads carrier decoder consumed ahead)
    (holds : carrier.Holds request.size) :
    ∃ next now, decoder.serve request = ((request.outcome carrier.medium ahead).1, next) ∧
      Reads carrier next now (request.outcome carrier.medium ahead).2 := by
  cases request with
  | @value τ layout order => exact value_cut τ order reads holds
  | byte =>
    obtain ⟨next, now, taken, after, -⟩ := byte_cut reads holds
    exact ⟨next, now, taken, after⟩
  | bytes count =>
    obtain ⟨next, now, taken, after, -⟩ := bytes_cut reads holds
    exact ⟨next, now, taken, after⟩
  | text encoding count => exact decodeNext_cut encoding.decode reads holds
  | units count => exact units_cut reads holds
  | unitsText count =>
    have short : carrier.Holds count := holds
    obtain ⟨next, now, viewed, after⟩ := units_cut reads short
    refine ⟨next, now, ?_, after⟩
    show decoder.unitsText count =
      ((unitsCut carrier.medium ahead count).1.bind Utf16View.toText, next)
    unfold Decoder.unitsText
    rw [viewed]
    cases (unitsCut carrier.medium ahead count).1 with
    | ok view => rfl
    | error e => rfl

/-- Calls one after another come to what the bytes ahead decide, whichever of them fail. -/
theorem serveAll_outcomes (requests : List Request) (reads : Reads carrier decoder consumed ahead)
    (holds : ∀ request ∈ requests, carrier.Holds request.size) :
    decoder.serveAll requests = outcomes carrier.medium ahead requests := by
  induction requests generalizing decoder consumed ahead with
  | nil => rfl
  | cons request rest ih =>
    rw [List.forall_mem_cons] at holds
    obtain ⟨next, now, served, after⟩ := serve_outcome request reads holds.1
    rw [serveAll, outcomes, served, ih after holds.2]

end Decoder

/-! ## The word for the carrier -/

section Medium

/-- An outcome that does not say that bytes ran out is the same on every carrier. -/
def Unending {β : Type} (outcome : Except Error β) : Prop :=
  outcome.mapError Error.onStream = outcome

variable (ahead : List UInt8)

theorem cut_onStream (count : Nat) :
    cut .stream count ahead =
      ((cut .buffer count ahead).1.mapError Error.onStream, (cut .buffer count ahead).2) := by
  unfold cut
  split <;> rfl

theorem cutByte_onStream :
    cutByte .stream ahead =
      ((cutByte .buffer ahead).1.mapError Error.onStream, (cutByte .buffer ahead).2) := by
  cases ahead with
  | nil => rfl
  | cons byte rest => rfl

/-- Decoding speaks of the carrier only where the bytes run out before it. -/
theorem decodeCut_onStream {β : Type} {decode : Array UInt8 → Except Error β} {count : Nat}
    (unending : ∀ run : Array UInt8, run.size = count → Unending (decode run)) :
    decodeCut .stream ahead count decode =
      ((decodeCut .buffer ahead count decode).1.mapError Error.onStream,
        (decodeCut .buffer ahead count decode).2) := by
  unfold decodeCut cut
  by_cases enough : count ≤ ahead.length
  · rw [if_pos enough, if_pos enough]
    have size : (ahead.take count).toArray.size = count := by
      rw [List.size_toArray, List.length_take]
      omega
    exact Prod.ext (unending _ size).symm rfl
  · rw [if_neg enough, if_neg enough]
    rfl

theorem checked_onStream {β σ : Type} {check : Except Error Unit} {unchanged : σ}
    {onMemory call : Except Error β × σ} (unending : Unending check)
    (same : call = (onMemory.1.mapError Error.onStream, onMemory.2)) :
    checked check unchanged call =
      ((checked check unchanged onMemory).1.mapError Error.onStream,
        (checked check unchanged onMemory).2) := by
  cases check with
  | ok => exact same
  | error e =>
    have word : e.onStream = e := Except.error.inj unending
    show (Except.error e, unchanged) = (Except.error e.onStream, unchanged)
    rw [word]

theorem unending_checkOrder (τ : Type) [Layout τ] (order : ByteOrder) :
    Unending (Layout.checkOrder τ order) := by
  unfold Layout.checkOrder
  split <;> rfl

/-- A value that has all its bytes is not said to be cut off. -/
theorem unending_read {τ : Type} [Layout τ] (order : ByteOrder) {run : Array UInt8}
    (size : run.size = Layout.width τ) : Unending (Layout.read order run : Except Error τ) := by
  have whole : Layout.checkLength τ run.size = .ok () := if_neg (by omega)
  have order_checked := unending_checkOrder τ order
  unfold Layout.read
  rw [whole]
  cases checked : Layout.checkOrder τ order with
  | ok => rfl
  | error e =>
    rw [checked] at order_checked
    exact congrArg Except.error (Except.error.inj order_checked)

theorem unending_decode (encoding : TextEncoding) (run : Array UInt8) :
    Unending (encoding.decode run) := by
  cases encoding with
  | utf8 =>
    simp only [TextEncoding.decode]
    cases Utf8.decode run.toList <;> rfl
  | utf16 order =>
    simp only [TextEncoding.decode]
    split
    · rfl
    · cases Utf16.decode (unitsOfBytes order run) <;> rfl

theorem unending_checkEven (count : Nat) : Unending (Utf16View.checkEven count) := by
  unfold Utf16View.checkEven
  split <;> rfl

theorem unending_ofBytes (run : Array UInt8) : Unending (Utf16View.ofBytes run) := by
  unfold Utf16View.ofBytes
  split <;> rfl

theorem unending_toText (view : Utf16View) : Unending view.toText := by
  unfold Utf16View.toText
  cases Utf16.decode view.units <;> rfl

theorem unitsCut_onStream (count : Nat) :
    unitsCut .stream ahead count =
      ((unitsCut .buffer ahead count).1.mapError Error.onStream,
        (unitsCut .buffer ahead count).2) := by
  refine checked_onStream (unending_checkEven count) ?_
  exact decodeCut_onStream ahead fun run _ => unending_ofBytes run

/-- A call on a stream comes to what it comes to in memory, but for the word. -/
theorem Request.outcome_onStream (request : Request) :
    request.outcome .stream ahead =
      ((request.outcome .buffer ahead).1.mapError Error.onStream,
        (request.outcome .buffer ahead).2) := by
  cases request with
  | @value τ layout order =>
    refine checked_onStream (unending_checkOrder τ order) ?_
    exact decodeCut_onStream ahead fun run size => unending_read order size
  | byte => exact cutByte_onStream ahead
  | bytes count => exact cut_onStream ahead count
  | text encoding count => exact decodeCut_onStream ahead fun run _ => unending_decode encoding run
  | units count => exact unitsCut_onStream ahead count
  | unitsText count =>
    show ((unitsCut .stream ahead count).1.bind Utf16View.toText,
        (unitsCut .stream ahead count).2) =
      (((unitsCut .buffer ahead count).1.bind Utf16View.toText).mapError Error.onStream,
        (unitsCut .buffer ahead count).2)
    rw [unitsCut_onStream]
    cases (unitsCut .buffer ahead count).1 with
    | ok view => exact Prod.ext (unending_toText view).symm rfl
    | error e => rfl

theorem outcomes_onStream (requests : List Request) :
    outcomes .stream ahead requests = (outcomes .buffer ahead requests).map Answered.onStream := by
  induction requests generalizing ahead with
  | nil => rfl
  | cons request rest ih =>
    rw [outcomes, outcomes, request.outcome_onStream, List.map_cons, ih]
    rfl

end Medium

/-! ## A stream against memory -/

namespace Decoder

/-- A decoder of a stream answers every call as one of the same bytes in memory does, however the
stream cuts the bytes up and whatever the length of the chunk, as long as no call asks for more than
the chunk is long: the same values, the same refusals, and an end of the bytes at the same calls
with the same numbers, behind failures as well as in front of them. -/
theorem stream_answers (data : Array UInt8) (source : Source) (config : Stream.Config)
    (pool : Pool UInt8) (reachable : pool.Reachable) (complete : source.Complete)
    (delivers : source.pending = data.toList) (positive : 1 ≤ config.chunkSize)
    (requests : List Request) (short : ∀ request ∈ requests, request.size ≤ config.chunkSize) :
    ∃ first rest, ofStream source config pool = .ok (first, rest) ∧
      first.serveAll requests =
        ((ofMemory data).serveAll requests).map Answered.onStream := by
  obtain ⟨inlet, rest, made, sound, same, chunkSize, ahead, -⟩ :=
    Inlet.sound_ofConfig source positive reachable.sound
  have fromStream : Reads (.stream config.chunkSize) (.stream inlet) inlet.consumed data.toList :=
    .stream sound (same ▸ complete) chunkSize rfl (ahead.trans delivers)
  have fromMemory : Reads .memory (ofMemory data) 0 data.toList := .memory rfl
  refine ⟨.stream inlet, rest, ?_, ?_⟩
  · unfold ofStream
    simp only [made]
    rfl
  · rw [serveAll_outcomes requests fromStream short,
      serveAll_outcomes requests fromMemory fun _ _ => trivial]
    exact outcomes_onStream data.toList requests

/-- Four bytes that come in two runs with an interruption between them, read through a chunk of
three. A request for too many fails and keeps them; a byte that is no text is used up. -/
theorem stream_answers_cut_up :
    let data : Array UInt8 := #[1, 2, 0xFF, 7]
    let source : Source :=
      { replies := [.data [1], .fail ⟨.interrupted, none⟩, .data [2, 0xFF, 7], .eof, .data []] }
    let requests : List Request :=
      [.value UInt16 .big, .bytes 3, .text .utf8 1, .units 1, .byte, .byte]
    (Pool.standard : Pool UInt8).Reachable ∧ source.Complete ∧ source.pending = data.toList ∧
      (∀ request ∈ requests, request.size ≤ 3) ∧
      ∃ first rest, ofStream source ⟨3⟩ Pool.standard = .ok (first, rest) ∧
        first.serveAll requests =
          [⟨.value UInt16 .big, .ok (258 : UInt16)⟩,
            ⟨.bytes 3, .error (.unexpectedEnd .stream 3 2)⟩,
            ⟨.text .utf8 1, .error (.encoding (.malformedUtf8 ⟨0, some 1⟩))⟩,
            ⟨.units 1, .error (.encoding (.oddByteCount "raw UTF-16" 1))⟩,
            ⟨.byte, .ok (7 : UInt8)⟩,
            ⟨.byte, .error (.unexpectedEnd .stream 1 0)⟩] := by
  intro data source requests
  have complete : source.Complete := by
    simp [source, Source.Complete, Source.CompleteReplies, Stream.ReadReply.Steady,
      Stream.ReadReply.Ends, Stream.ReadReply.bytes]
  have short : ∀ request ∈ requests, request.size ≤ 3 := by
    simp [requests, Request.size, Layout.width]
  obtain ⟨first, rest, made, answered⟩ := stream_answers data source ⟨3⟩ Pool.standard
    Pool.reachable_standard complete rfl (by decide) requests short
  exact ⟨Pool.reachable_standard, complete, rfl, short, first, rest, made, answered⟩

end Decoder

end PooledBuffers
