/-!
# UTF-16 code units

* `Utf16.encode` — the code units of a text.
* `Utf16.items` — what code units stand for: characters, and surrogates without a partner.
* `Utf16.decode` — the text, or the first surrogate without a partner.
* `Utf16.decodeLossy` — the text with a replacement character for each of those.
-/

namespace PooledBuffers.Utf16

/-- The first half of a pair. -/
def isHighSurrogate (unit : UInt16) : Bool :=
  0xD800 ≤ unit && unit < 0xDC00

/-- The second half of a pair. -/
def isLowSurrogate (unit : UInt16) : Bool :=
  0xDC00 ≤ unit && unit < 0xE000

/-- The code units of a character: itself, or a pair of surrogates. -/
def encodeChar (c : Char) : List UInt16 :=
  if c.toNat < 0x10000 then [UInt16.ofNat c.toNat]
  else
    let offset := c.toNat - 0x10000
    [UInt16.ofNat (0xD800 + offset / 1024), UInt16.ofNat (0xDC00 + offset % 1024)]

/-- The code units of a text. -/
def encode (text : String) : List UInt16 :=
  text.toList.flatMap encodeChar

/-- The character of a pair of surrogates. -/
def joinPair (high low : UInt16) : Char :=
  Char.ofNat (0x10000 + (high.toNat - 0xD800) * 1024 + (low.toNat - 0xDC00))

/-- What one or two code units stand for. -/
inductive Item where
  | scalar (c : Char)
  /-- A surrogate without a partner. -/
  | unpaired (unit : UInt16)
  deriving DecidableEq, Repr

/-- The state of reading code units: a first half that waits for its partner, and the items
before it, the last one first. -/
structure Pairing where
  waiting : Option UInt16 := none
  done : List Item := []

/-- Reads a code unit when nothing waits. -/
def Pairing.afresh (done : List Item) (unit : UInt16) : Pairing :=
  if isHighSurrogate unit then ⟨some unit, done⟩
  else if isLowSurrogate unit then ⟨none, .unpaired unit :: done⟩
  else ⟨none, .scalar (Char.ofNat unit.toNat) :: done⟩

/-- Reads a code unit. -/
def Pairing.step (state : Pairing) (unit : UInt16) : Pairing :=
  match state.waiting with
  | none => Pairing.afresh state.done unit
  | some high =>
    if isLowSurrogate unit then ⟨none, .scalar (joinPair high unit) :: state.done⟩
    else Pairing.afresh (.unpaired high :: state.done) unit

/-- The items in order, once all units are read. -/
def Pairing.finish (state : Pairing) : List Item :=
  match state.waiting with
  | none => state.done.reverse
  | some high => (.unpaired high :: state.done).reverse

/-- What code units stand for, in order. -/
def items (units : List UInt16) : List Item :=
  (units.foldl Pairing.step {}).finish

/-- The first surrogate without a partner. -/
def firstUnpaired? (items : List Item) : Option UInt16 :=
  items.findSome? fun
    | .scalar _ => none
    | .unpaired unit => some unit

/-- The character of an item, a replacement character for an unpaired surrogate. -/
def Item.lossy : Item → Char
  | .scalar c => c
  | .unpaired _ => Char.ofNat 0xFFFD

/-- The text of some code units, with replacement characters where it has to be. -/
def decodeLossy (units : List UInt16) : String :=
  String.ofList ((items units).map Item.lossy)

/-- The text of some code units, or the first surrogate without a partner. -/
def decode (units : List UInt16) : Except UInt16 String :=
  match firstUnpaired? (items units) with
  | some unit => .error unit
  | none => .ok (decodeLossy units)

end PooledBuffers.Utf16
