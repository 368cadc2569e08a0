import PooledBuffers.Text.Utf16

/-!
# Tokens of JSON text

A scanner that reads one character at a time. What it is in the middle of is a `Scan`; a number
ends at the first character that cannot continue it.

* `Token` — brackets, separators, words, numbers as they are written, and strings.
* `tokens?` — the tokens of a text, or nothing where it has anything else.
-/

namespace PooledBuffers.Json

/-- The parts that JSON text is made of. -/
inductive Token where
  | openBrace
  | closeBrace
  | openBracket
  | closeBracket
  | colon
  | comma
  | null
  | bool (value : Bool)
  /-- A number as it is written. -/
  | number (text : String)
  /-- A string; nothing when an escaped surrogate has no partner, so that it stands for no text. -/
  | string (text : Option String)
  deriving DecidableEq, Repr

/-- Where in a number the scanner is. -/
inductive NumberPhase where
  | minus
  | zero
  | whole
  | point
  | fraction
  | exponentMark
  | exponentSign
  | exponent
  deriving DecidableEq, Repr

/-- Whether a number may end in a phase. -/
def NumberPhase.isComplete : NumberPhase → Bool
  | zero | whole | fraction | exponent => true
  | minus | point | exponentMark | exponentSign => false

/-- The phase after one more character, if that character can continue the number. -/
def NumberPhase.next? (phase : NumberPhase) (c : Char) : Option NumberPhase :=
  match phase with
  | minus => if c = '0' then some zero else if c.isDigit then some whole else none
  | zero => afterWhole
  | whole => if c.isDigit then some whole else afterWhole
  | point => if c.isDigit then some fraction else none
  | fraction => if c.isDigit then some fraction else afterFraction
  | exponentMark =>
    if c.isDigit then some exponent else if c = '+' ∨ c = '-' then some exponentSign else none
  | exponentSign => if c.isDigit then some exponent else none
  | exponent => if c.isDigit then some exponent else none
where
  afterFraction : Option NumberPhase :=
    if c = 'e' ∨ c = 'E' then some exponentMark else none
  afterWhole : Option NumberPhase :=
    if c = '.' then some point else afterFraction

/-- What the scanner is in the middle of. Characters and code units are kept last one first. -/
inductive Scan where
  | between
  /-- A word of which these characters are still to come. -/
  | word (rest : List Char) (token : Token)
  | number (phase : NumberPhase) (text : List Char)
  | string (units : List UInt16)
  | escape (units : List UInt16)
  /-- The hexadecimal digits of an escape: how many are to come, and their value so far. -/
  | hex (units : List UInt16) (left value : Nat)
  deriving Repr

/-- The value of a hexadecimal digit. -/
def hexValue? (c : Char) : Option Nat :=
  if '0' ≤ c ∧ c ≤ '9' then some (c.toNat - '0'.toNat)
  else if 'a' ≤ c ∧ c ≤ 'f' then some (c.toNat - 'a'.toNat + 10)
  else if 'A' ≤ c ∧ c ≤ 'F' then some (c.toNat - 'A'.toNat + 10)
  else none

/-- The character that a short escape stands for. -/
def shortEscape? (c : Char) : Option Char :=
  match c with
  | '"' => some '"'
  | '\\' => some '\\'
  | '/' => some '/'
  | 'b' => some '\x08'
  | 'f' => some '\x0c'
  | 'n' => some '\n'
  | 'r' => some '\r'
  | 't' => some '\t'
  | _ => none

/-- Reads a character between two tokens. -/
def Scan.start? (c : Char) (done : List Token) : Option (Scan × List Token) :=
  match c with
  | ' ' | '\n' | '\r' | '\t' => some (between, done)
  | '\x7b' => some (between, .openBrace :: done)
  | '\x7d' => some (between, .closeBrace :: done)
  | '[' => some (between, .openBracket :: done)
  | ']' => some (between, .closeBracket :: done)
  | ':' => some (between, .colon :: done)
  | ',' => some (between, .comma :: done)
  | '"' => some (string [], done)
  | '-' => some (number .minus [c], done)
  | '0' => some (number .zero [c], done)
  | 't' => some (word ['r', 'u', 'e'] (.bool true), done)
  | 'f' => some (word ['a', 'l', 's', 'e'] (.bool false), done)
  | 'n' => some (word ['u', 'l', 'l'] .null, done)
  | _ => if c.isDigit then some (number .whole [c], done) else none

/-- The string token of code units, last one first. -/
def stringToken (units : List UInt16) : Token :=
  .string (Utf16.decode units.reverse).toOption

/-- Reads a character. -/
def Scan.step? (scan : Scan) (done : List Token) (c : Char) : Option (Scan × List Token) :=
  match scan with
  | between => start? c done
  | word [] token => start? c (token :: done)
  | word (expected :: rest) token =>
    if c = expected then
      some (if rest.isEmpty then (between, token :: done) else (word rest token, done))
    else none
  | number phase text =>
    match phase.next? c with
    | some phase => some (number phase (c :: text), done)
    | none =>
      if phase.isComplete then start? c (.number (String.ofList text.reverse) :: done) else none
  | string units =>
    if c = '"' then some (between, stringToken units :: done)
    else if c = '\\' then some (escape units, done)
    else if c.toNat < 0x20 then none
    else some (string ((Utf16.encodeChar c).reverse ++ units), done)
  | escape units =>
    if c = 'u' then some (hex units 4 0, done)
    else (shortEscape? c).map fun c => (string ((Utf16.encodeChar c).reverse ++ units), done)
  | hex units left value =>
    (hexValue? c).map fun digit =>
      let value := value * 16 + digit
      if left ≤ 1 then (string (UInt16.ofNat value :: units), done)
      else (hex units (left - 1) value, done)

/-- The tokens once the text has ended, if it does not end in the middle of one. -/
def Scan.finish? : Scan → List Token → Option (List Token)
  | between, done => some done.reverse
  | number phase text, done =>
    if phase.isComplete then some (.number (String.ofList text.reverse) :: done).reverse else none
  | _, _ => none

/-- The tokens of a text. -/
def tokens? (text : String) : Option (List Token) := do
  let (scan, done) ← text.toList.foldlM (fun (scan, done) c => scan.step? done c)
    (Scan.between, [])
  scan.finish? done

end PooledBuffers.Json
