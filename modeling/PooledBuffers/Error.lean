/-!
# Errors

What can go wrong in the library, as causes; the wording is in `Error.message` alone.

* `IoFault` — a failure reported by a stream: its kind, and a text of its own if it has one.
* `Utf8Fault` — where and how bytes stop being UTF-8.
* `EncodingFault` — every reason why bytes or units are not the text they should be.
* `Error` — the errors that operations return.
* `IndexFault` — an index outside what is indexed, where the caller promised one inside.
-/

namespace PooledBuffers

/-! ## Stream failures -/

/-- The kinds of failure that a stream can report. -/
inductive IoFault.Kind where
  | notFound
  | permissionDenied
  | connectionReset
  | brokenPipe
  | wouldBlock
  | timedOut
  | unexpectedEof
  | writeZero
  | interrupted
  | other
  deriving DecidableEq, Repr

/-- The words that describe a kind of failure. -/
def IoFault.Kind.message : IoFault.Kind → String
  | .notFound => "entity not found"
  | .permissionDenied => "permission denied"
  | .connectionReset => "connection reset"
  | .brokenPipe => "broken pipe"
  | .wouldBlock => "operation would block"
  | .timedOut => "timed out"
  | .unexpectedEof => "unexpected end of file"
  | .writeZero => "write zero"
  | .interrupted => "operation interrupted"
  | .other => "other error"

/-- The name of a kind of failure. -/
def IoFault.Kind.name : IoFault.Kind → String
  | .notFound => "NotFound"
  | .permissionDenied => "PermissionDenied"
  | .connectionReset => "ConnectionReset"
  | .brokenPipe => "BrokenPipe"
  | .wouldBlock => "WouldBlock"
  | .timedOut => "TimedOut"
  | .unexpectedEof => "UnexpectedEof"
  | .writeZero => "WriteZero"
  | .interrupted => "Interrupted"
  | .other => "Other"

/-- All kinds of failure. -/
def IoFault.Kind.all : List IoFault.Kind :=
  [.notFound, .permissionDenied, .connectionReset, .brokenPipe, .wouldBlock, .timedOut,
    .unexpectedEof, .writeZero, .interrupted, .other]

/-- The kind of failure of a name. -/
def IoFault.Kind.ofName? (name : String) : Option IoFault.Kind :=
  all.find? fun kind => kind.name = name

/-- A failure reported by a stream. -/
structure IoFault where
  kind : IoFault.Kind
  /-- The text of this failure; without one its kind speaks for it. -/
  detail : Option String := none
  deriving DecidableEq, Repr

/-- A failure's own text comes before the words of its kind. -/
def IoFault.message (fault : IoFault) : String :=
  fault.detail.getD fault.kind.message

/-! ## Text that does not decode -/

/-- The place and shape of the first ill-formed part of a byte string. -/
structure Utf8Fault where
  /-- Length of the longest well-formed part at the start. -/
  validLength : Nat
  /-- How many bytes the ill-formed sequence takes; nothing when the input ends inside a
  sequence that was well-formed so far. -/
  badLength : Option Nat
  deriving DecidableEq, Repr

/-- The fault in words, with its byte offset. -/
def Utf8Fault.message (fault : Utf8Fault) : String :=
  match fault.badLength with
  | some length =>
    s!"invalid utf-8 sequence of {length} bytes from index {fault.validLength}"
  | none => s!"incomplete utf-8 byte sequence from index {fault.validLength}"

/-- A number in lowercase hexadecimal without leading zeros. -/
def hexDigits (n : Nat) : String :=
  String.ofList (Nat.toDigits 16 n)

/-- Why bytes or code units are not text. -/
inductive EncodingFault where
  | malformedUtf8 (fault : Utf8Fault)
  /-- A surrogate that has no partner, found while decoding. -/
  | unpairedSurrogate (unit : UInt16)
  /-- Some surrogate has no partner; the one at fault is not named. -/
  | loneSurrogate
  /-- Half a code unit is left over; `what` names the reader's format. -/
  | oddByteCount (what : String) (count : Nat)
  | other (text : String)
  deriving DecidableEq, Repr

/-- The fault in words. -/
def EncodingFault.message : EncodingFault → String
  | .malformedUtf8 fault => "invalid UTF-8: " ++ fault.message
  | .unpairedSurrogate unit =>
    "invalid UTF-16: unpaired surrogate found: " ++ hexDigits unit.toNat
  | .loneSurrogate => "invalid UTF-16: invalid utf-16: lone surrogate found"
  | .oddByteCount what count => s!"{what} needs an even byte count, got {count}"
  | .other text => text

/-! ## Errors of operations -/

/-- Where input ran out. -/
inductive Medium where
  | buffer
  | stream
  deriving DecidableEq, Repr

/-- The word for a medium in messages. -/
def Medium.word : Medium → String
  | .buffer => "buffer"
  | .stream => "stream"

/-- The errors that operations return. -/
inductive Error where
  /-- A stream failed; `context` says during what. -/
  | io (context : String) (fault : IoFault)
  | outOfRange (parameter : String) (value limit : Nat)
  | capacityExceeded (requested capacity : Nat)
  | unexpectedEnd (medium : Medium) (needed available : Nat)
  | invalidOperation (text : String)
  | invalidParameter (parameter text : String)
  | encoding (fault : EncodingFault)
  | regionNotFound (id : Nat)
  deriving DecidableEq, Repr

namespace Error

/-- The text shown to a reader. -/
def message : Error → String
  | .io context fault => s!"I/O error: {context}: {fault.message}"
  | .outOfRange parameter value limit =>
    s!"Out of range: {parameter} = {value}, maximum is {limit}"
  | .capacityExceeded requested capacity =>
    s!"Capacity exceeded: requested {requested}, capacity {capacity}"
  | .unexpectedEnd medium needed available =>
    s!"Unexpected end of {medium.word}: needed {needed} bytes, {available} available"
  | .invalidOperation text => s!"Invalid operation: {text}"
  | .invalidParameter parameter text => s!"Invalid parameter: {parameter} - {text}"
  | .encoding fault => s!"Encoding error: {fault.message}"
  | .regionNotFound id => s!"Region not found: {id}"

/-- A stream failure met outside any named operation. -/
def ofIoFault (fault : IoFault) : Error :=
  .io "I/O operation failed" fault

/-- The stream failure behind an error, if there is one. -/
def cause? : Error → Option IoFault
  | .io _ fault => some fault
  | _ => none

/-- Whether the error says that input ran out. -/
def isEndOfInput : Error → Bool
  | .unexpectedEnd .. => true
  | _ => false

end Error

/-! ## Indexing outside -/

/-- What was indexed; each has words of its own for an index outside. -/
inductive Indexed where
  | cells
  | ring
  | halves
  | mutableHalves
  deriving DecidableEq, Repr

/-- An index that is not below the length of what was indexed. -/
structure IndexFault where
  indexed : Indexed
  index : Nat
  length : Nat
  deriving DecidableEq, Repr

/-- The fault in words. -/
def IndexFault.message (fault : IndexFault) : String :=
  match fault.indexed with
  | .cells => s!"index out of bounds: the len is {fault.length} but the index is {fault.index}"
  | .ring => s!"index {fault.index} out of range for ring of length {fault.length}"
  | .halves => s!"index {fault.index} out of range for TwoSpan of length {fault.length}"
  | .mutableHalves =>
    s!"index {fault.index} out of range for TwoSpanMut of length {fault.length}"

end PooledBuffers
