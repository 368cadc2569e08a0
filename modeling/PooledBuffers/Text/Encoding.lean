import PooledBuffers.Size
import PooledBuffers.Text.Utf8
import PooledBuffers.Text.Utf16
import PooledBuffers.Wire.Layout

/-!
# Text encodings

Text as bytes in UTF-8 or in UTF-16 of either byte order, and views of bytes as raw UTF-16.

* `TextEncoding.pieces` — the encoded text in the pieces in which it is handed on.
* `TextEncoding.encodeInto` — hands them to a sink, as `unitsInto` does with code units.
* `TextEncoding.decode` — the text of some bytes, or why they are not text.
* `Utf16View` — an even number of bytes seen as code units in little-endian order.
-/

namespace PooledBuffers

/-- The code units that bytes stand for, two bytes each; an odd byte at the end is left out. -/
def unitsOfBytes (order : ByteOrder) (bytes : Array UInt8) : List UInt16 :=
  (List.range (bytes.size / 2)).map fun i =>
    Layout.ofBytes order (bytes.extract (2 * i) (2 * i + 2))

/-- The bytes of code units. -/
def bytesOfUnits (order : ByteOrder) (units : List UInt16) : Array UInt8 :=
  (units.flatMap fun unit => (Layout.bytes order unit).toList).toArray

/-- The longest piece of encoded UTF-16. -/
def pieceLength : Nat := 256

/-- The bytes of code units behind those that the piece under way holds already. A piece is handed
on when it is full, and at the end what the last one holds. -/
def fillPieces (order : ByteOrder) (piece : Array UInt8) : List UInt16 → List (Array UInt8)
  | [] => if piece.isEmpty then [] else [piece]
  | unit :: rest =>
    let longer := piece ++ Layout.bytes order unit
    if longer.size = pieceLength then longer :: fillPieces order #[] rest
    else fillPieces order longer rest

/-- The number of code units that fill a piece. -/
def batchLength : Nat := pieceLength / 2

/-- Code units in batches that fill a piece each, the last of which may be shorter but is not
empty. -/
def batches (units : List UInt16) : List (List UInt16) :=
  (List.range ((units.length + batchLength - 1) / batchLength)).map fun i =>
    (units.drop (i * batchLength)).take batchLength

/-- Code units in little-endian order, in pieces. -/
def unitPieces (units : List UInt16) : List (Array UInt8) :=
  (batches units).map (bytesOfUnits .little)

/-- Hands pieces to a sink until it refuses one, and answers how many bytes they are together with
the `before` of earlier pieces. -/
def handOut {σ : Type} (sink : σ → Array UInt8 → Except Error Unit × σ) (state : σ)
    (before : Nat) : List (Array UInt8) → Except Error Nat × σ
  | [] => (.ok before, state)
  | piece :: rest =>
    match sink state piece with
    | (.error e, state) => (.error e, state)
    | (.ok (), state) => handOut sink state (before + piece.size) rest

/-- Hands code units to a sink in pieces and answers how many bytes they are. -/
def unitsInto {σ : Type} (sink : σ → Array UInt8 → Except Error Unit × σ) (state : σ)
    (units : List UInt16) : Except Error Nat × σ :=
  let (outcome, state) := handOut sink state 0 (unitPieces units)
  (outcome.map fun _ => units.length * 2, state)

/-- How text is turned into bytes. -/
inductive TextEncoding where
  | utf8
  | utf16 (order : ByteOrder)
  deriving DecidableEq, Repr

namespace TextEncoding

/-- The encoding that is used unless another one is asked for. -/
def standard : TextEncoding := .utf8

/-- The name of an encoding. -/
def name : TextEncoding → String
  | utf8 => "Utf8"
  | utf16 .little => "Utf16Le"
  | utf16 .big => "Utf16Be"

/-- All encodings. -/
def all : List TextEncoding := [.utf8, .utf16 .little, .utf16 .big]

/-- The encoding of a name. -/
def ofName? (name : String) : Option TextEncoding :=
  all.find? fun encoding => encoding.name = name

/-- The number of bytes that a text takes. -/
def byteCount : TextEncoding → String → Nat
  | utf8, text => text.utf8ByteSize
  | utf16 _, text => (Utf16.encode text).length * 2

/-- The encoded text, in the pieces in which it is handed on: UTF-8 in one piece, even if that is
empty; UTF-16 in pieces of bounded length. -/
def pieces : TextEncoding → String → List (Array UInt8)
  | utf8, text => [(Utf8.encode text).toArray]
  | utf16 order, text => fillPieces order #[] (Utf16.encode text)

/-- Hands the encoded text to a sink in pieces and answers how many bytes it is. -/
def encodeInto {σ : Type} (encoding : TextEncoding)
    (sink : σ → Array UInt8 → Except Error Unit × σ) (state : σ) (text : String) :
    Except Error Nat × σ :=
  handOut sink state 0 (encoding.pieces text)

/-- The text of some bytes, or why they are not text. -/
def decode : TextEncoding → Array UInt8 → Except Error String
  | utf8, bytes =>
    match Utf8.decode bytes.toList with
    | .ok text => .ok text
    | .error fault => .error (.encoding (.malformedUtf8 fault))
  | utf16 order, bytes =>
    if bytes.size % 2 ≠ 0 then .error (.encoding (.oddByteCount "UTF-16 text" bytes.size))
    else
      match Utf16.decode (unitsOfBytes order bytes) with
      | .ok text => .ok text
      | .error unit => .error (.encoding (.unpairedSurrogate unit))

end TextEncoding

/-! ## Raw UTF-16 -/

/-- Bytes seen as code units in little-endian order; they need not be well-formed text. -/
structure Utf16View where
  bytes : Array UInt8
  even : bytes.size % 2 = 0

namespace Utf16View

/-- An odd byte count is refused. -/
def checkEven (count : Nat) : Except Error Unit :=
  if count % 2 = 0 then .ok () else .error (.encoding (.oddByteCount "raw UTF-16" count))

/-- The view of some bytes, if their number is even. -/
def ofBytes (bytes : Array UInt8) : Except Error Utf16View :=
  if h : bytes.size % 2 = 0 then .ok ⟨bytes, h⟩
  else .error (.encoding (.oddByteCount "raw UTF-16" bytes.size))

/-- The number of code units. -/
def length (view : Utf16View) : Nat := view.bytes.size / 2

def isEmpty (view : Utf16View) : Bool := view.bytes.isEmpty

/-- The code units in order. -/
def units (view : Utf16View) : List UInt16 := unitsOfBytes .little view.bytes

/-- Which step of finding a code unit's bytes left the range of sizes. -/
inductive OffsetFault where
  | start
  | stop
  deriving DecidableEq, Repr

/-- The fault in words. -/
def OffsetFault.message : OffsetFault → String
  | start => "attempt to multiply with overflow"
  | stop => "attempt to add with overflow"

/-- The code unit at an index. Its bytes are found by their offsets, and an index whose offsets
are no sizes is a fault. -/
def get? (view : Utf16View) (index : Nat) : Except OffsetFault (Option UInt16) :=
  if Size.top < index * 2 then .error .start
  else if Size.top < index * 2 + 2 then .error .stop
  else if index * 2 + 2 ≤ view.bytes.size then
    .ok (some (Layout.ofBytes .little (view.bytes.extract (index * 2) (index * 2 + 2))))
  else .ok none

/-- What the code units stand for. -/
def items (view : Utf16View) : List Utf16.Item := Utf16.items view.units

/-- The text, or the first surrogate without a partner. -/
def toText (view : Utf16View) : Except Error String :=
  match Utf16.decode view.units with
  | .ok text => .ok text
  | .error unit => .error (.encoding (.unpairedSurrogate unit))

/-- The text with a replacement character for each surrogate without a partner. -/
def toTextLossy (view : Utf16View) : String := Utf16.decodeLossy view.units

/-- Writes the text behind another one, a character at a time. -/
def writeTo (view : Utf16View) (text : String) : String :=
  view.items.foldl (fun text item => text.push item.lossy) text

/-- The text as it is shown. -/
def display (view : Utf16View) : String := view.writeTo ""

instance : Describe Utf16View where
  describe view := Text.applied "RawUtf16" (describe view.toTextLossy)

end Utf16View

end PooledBuffers
