import PooledBuffers.Error
import PooledBuffers.Json.Token

/-!
# Hexadecimal text

Bytes as pairs of lowercase hexadecimal digits, and numbers with a fixed count of digits.
-/

namespace PooledBuffers.Hex

/-- The two digits of a byte. -/
def digits (byte : UInt8) : List Char :=
  [Nat.digitChar (byte.toNat / 16), Nat.digitChar (byte.toNat % 16)]

/-- Bytes as text. -/
def encode (bytes : Array UInt8) : String :=
  String.ofList (bytes.toList.flatMap digits)

/-- The bytes before, and those of pairs of digits; nothing for anything else. -/
def decodeAfter? (before : Array UInt8) : List Char → Option (Array UInt8)
  | [] => some before
  | [_] => none
  | high :: low :: rest =>
    match Json.hexValue? high, Json.hexValue? low with
    | some h, some l => decodeAfter? (before.push (UInt8.ofNat (h * 16 + l))) rest
    | _, _ => none

/-- The bytes that some text stands for. -/
def decode? (text : String) : Option (Array UInt8) :=
  decodeAfter? #[] text.toList

/-- A number with a count of digits. -/
def word (count n : Nat) : String :=
  let text := hexDigits n
  "0x" ++ "".pushn '0' (count - text.length) ++ text

/-- The number of a text with a leading mark of two characters. -/
def wordValue? (text : String) : Option Nat :=
  (text.toList.drop 2).foldlM (fun n c => return n * 16 + (← Json.hexValue? c)) 0

end PooledBuffers.Hex
