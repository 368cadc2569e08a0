import PooledBuffers.Proofs.Text.Encoding
import PooledBuffers.Wire.Decoder
import PooledBuffers.Wire.Encoder

/-!
# Items of the format

What an encoder writes in one call is an item, and each kind of item has a call of a decoder that
reads it back, given the number of bytes that the write answered.

* `Item.image` — the bytes of an item, which no byte of any other item is needed to read;
* `Encoder.putAll` — items written one after another, with the counts that the writes answer;
* `Decoder.answerAll` — calls made one after another, with what they answer.
-/

namespace PooledBuffers

/-- What one call of an encoder writes. A floating-point number is a value of its bit pattern. -/
inductive Item : Type 1 where
  | value {τ : Type} [Layout τ] [LawfulLayout τ] (order : ByteOrder) (value : τ)
  | byte (value : UInt8)
  | bytes (run : Array UInt8)
  | text (encoding : TextEncoding) (text : String)
  | units (units : List UInt16)

/-- One call of a decoder. -/
inductive Call : Type 1 where
  | value (τ : Type) [Layout τ] [LawfulLayout τ] (order : ByteOrder)
  | byte
  | bytes (count : Nat)
  | text (encoding : TextEncoding) (count : Nat)
  | units (count : Nat)

namespace Item

/-- The bytes of an item. -/
def image : Item → Array UInt8
  | @Item.value _ _ _ order content => Layout.bytes order content
  | .byte content => #[content]
  | .bytes run => run
  | .text encoding content => encoding.encoded content
  | .units content => bytesOfUnits .little content

/-- How many bytes of an item have to stay together on their way. -/
def span : Item → Nat
  | @Item.value τ _ _ _ _ => Layout.width τ
  | _ => 0

/-- A value too wide for its byte order is refused; no other item is. -/
def check : Item → Except Error Unit
  | @Item.value τ _ _ order _ => Layout.checkOrder τ order
  | _ => .ok ()

theorem check_eq_ok {item : Item} (narrow : item.span ≤ maxSwapWidth) : item.check = .ok () := by
  cases item with
  | value order content => exact Layout.checkOrder_eq_ok order narrow
  | byte _ | bytes _ | text _ _ | units _ => rfl

/-- The call that reads an item back, if its write answered `count`. -/
def call (count : Nat) : Item → Call
  | @Item.value τ _ _ order _ => .value τ order
  | .byte _ => .byte
  | .bytes _ => .bytes count
  | .text encoding _ => .text encoding count
  | .units _ => .units count

end Item

/-- The bytes of items one after another. -/
def payload (items : List Item) : Array UInt8 := join (items.map Item.image)

@[simp] theorem payload_nil : payload [] = #[] := rfl

@[simp] theorem payload_cons (item : Item) (rest : List Item) :
    payload (item :: rest) = item.image ++ payload rest := join_cons _ _

/-! ## Writing items -/

namespace Encoder

/-- Writes an item and answers how many bytes it took. -/
def put (encoder : Encoder) (item : Item) (pool : Pool UInt8) :
    Except Error Nat × Encoder × Pool UInt8 :=
  match item with
  | @Item.value _ _ _ order content => encoder.value order content pool
  | .byte content =>
    let (outcome, state) := encoder.byte content pool
    (outcome.map fun _ => 1, state)
  | .bytes run =>
    let (outcome, state) := encoder.bytes run pool
    (outcome.map fun _ => run.size, state)
  | .text encoding content => encoder.text encoding content pool
  | .units content => encoder.units content pool

/-- Writes items until one of them fails, and answers how many bytes each of them took. -/
def putAll (encoder : Encoder) (pool : Pool UInt8) :
    List Item → Except Error (List Nat) × Encoder × Pool UInt8
  | [] => (.ok [], encoder, pool)
  | item :: rest =>
    match encoder.put item pool with
    | (.error e, state) => (.error e, state)
    | (.ok count, encoder, pool) =>
      let (outcome, state) := encoder.putAll pool rest
      (outcome.map (count :: ·), state)

/-- The bytes that an encoder leaves behind at its end: what is written in memory, or what the
sink has accepted after the last flush. -/
def finish (encoder : Encoder) (pool : Pool UInt8) : Except Error (Array UInt8) :=
  match encoder with
  | memory _ => encoder.written
  | stream _ => do
    let (outcome, loan, _) := encoder.intoSink pool
    outcome
    return (loan.sink.map Stream.Sink.accepted).getD #[]

end Encoder

/-! ## Reading items -/

namespace Decoder

/-- Makes a call. What it answers is an item again. -/
def answer (decoder : Decoder) : Call → Except Error Item × Decoder
  | @Call.value τ _ _ order =>
    let (outcome, decoder) := decoder.value τ order
    (outcome.map fun content => Item.value order content, decoder)
  | .byte =>
    let (outcome, decoder) := decoder.byte
    (outcome.map Item.byte, decoder)
  | .bytes count =>
    let (outcome, decoder) := decoder.bytes count
    (outcome.map Item.bytes, decoder)
  | .text encoding count =>
    let (outcome, decoder) := decoder.text encoding count
    (outcome.map (Item.text encoding), decoder)
  | .units count =>
    let (outcome, decoder) := decoder.units count
    (outcome.map fun view => Item.units view.units, decoder)

/-- Makes calls until one of them fails. -/
def answerAll (decoder : Decoder) : List Call → Except Error (List Item) × Decoder
  | [] => (.ok [], decoder)
  | call :: rest =>
    match decoder.answer call with
    | (.error e, decoder) => (.error e, decoder)
    | (.ok item, decoder) =>
      let (outcome, decoder) := decoder.answerAll rest
      (outcome.map (item :: ·), decoder)

end Decoder

end PooledBuffers
